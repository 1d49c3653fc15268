import Autodiff.Proofs.Outcome
import Mathlib.Data.List.Forall2

/-!
# Lists and computations over them

A computation that is carried out for each element of a list succeeds exactly if it does for every
element, and otherwise it fails with the first element for which it fails.

* `exists_of_forall₂` and `exists_getElem?_of_forall₂` find the partner of an element, and
  `map_flatten_of_forall₂` is about partners that are groups;
* `flatMap_zipIdx_ite` and `lookup_zipIdx` find an element by its number;
* `mapM_eq_ok_iff` and `mapM_eq_some_iff` relate the elements and the results one by one;
* `mapM_eq_error_iff` finds the element that stops the computation, and
  `mapM_map_eq_error_iff` says that what is made of the results afterwards stops nothing;
* `exists_step_of_foldlM` finds the step that loses a property, and `property_of_foldlM` says that
  otherwise it is kept.
-/

namespace Autodiff

variable {ε β γ : Type}

/-! ## Lists side by side -/

theorem exists_of_forall₂ {R : β → γ → Prop} {elements : List β} {results : List γ}
    (hAll : List.Forall₂ R elements results) {element : β} (hMem : element ∈ elements) :
    ∃ result ∈ results, R element result := by
  induction hAll with
  | nil => cases hMem
  | @cons first result rest later hFirst hRest ih =>
    rcases List.mem_cons.1 hMem with rfl | hMem
    · exact ⟨result, List.mem_cons_self, hFirst⟩
    · obtain ⟨found, hFound, hRelated⟩ := ih hMem
      exact ⟨found, List.mem_cons_of_mem _ hFound, hRelated⟩

theorem exists_getElem?_of_forall₂ {R : β → γ → Prop} {elements : List β} {results : List γ}
    (hAll : List.Forall₂ R elements results) {i : Nat} {element : β}
    (hElement : elements[i]? = some element) :
    ∃ result, results[i]? = some result ∧ R element result := by
  obtain ⟨hi, rfl⟩ := List.getElem?_eq_some_iff.1 hElement
  have hResult : i < results.length := hAll.length_eq ▸ hi
  exact ⟨results[i], List.getElem?_eq_getElem hResult, hAll.get hi hResult⟩

/-- Groups whose images are given by their partners. -/
theorem map_flatten_of_forall₂ {δ : Type} {R : β → List γ → Prop} {f : γ → δ} {g : β → List δ}
    {elements : List β} {groups : List (List γ)} (hAll : List.Forall₂ R elements groups)
    (hEach : ∀ element group, R element group → group.map f = g element) :
    groups.flatten.map f = elements.flatMap g := by
  induction hAll with
  | nil => rfl
  | @cons element group rest later hGroup hRest ih =>
    rw [List.flatten_cons, List.map_append, ih, hEach element group hGroup, List.flatMap_cons]

/-! ## Numbered elements -/

/-- Only what has a given number is kept. -/
theorem flatMap_zipIdx_ite (f : β → List γ) {elements : List β} {i : Nat}
    {element : β} (hElement : elements[i]? = some element) (first : Nat) :
    ((elements.zipIdx first).flatMap fun numbered =>
      if numbered.2 = first + i then f numbered.1 else []) = f element := by
  induction elements generalizing i first with
  | nil => cases hElement
  | cons head rest ih =>
    rw [List.zipIdx_cons, List.flatMap_cons]
    cases i with
    | zero =>
      cases hElement
      -- the numbers behind are larger
      have hRest : ((rest.zipIdx (first + 1)).flatMap fun numbered =>
          if numbered.2 = first + 0 then f numbered.1 else []) = [] := by
        refine List.flatMap_eq_nil_iff.2 fun numbered hMem => if_neg ?_
        have hLarger := List.le_snd_of_mem_zipIdx hMem
        omega
      rw [hRest, List.append_nil]
      exact if_pos rfl
    | succ i =>
      have hHead : first ≠ first + (i + 1) := by omega
      have hRest := ih (List.getElem?_cons_succ ▸ hElement) (first + 1)
      rw [if_neg hHead, List.nil_append, ← hRest, Nat.add_assoc, Nat.add_comm 1 i]

/-- What is looked up under the number of an element. -/
theorem lookup_zipIdx (f : β → γ) (elements : List β) (first i : Nat) :
    ((elements.zipIdx first).map fun (element, number) => (number, f element)).lookup
      (first + i) = elements[i]?.map f := by
  induction elements generalizing first i with
  | nil => simp
  | cons head rest ih =>
    cases i with
    | zero => simp
    | succ i =>
      have hRest := ih (first + 1) i
      rw [Nat.add_assoc, Nat.add_comm 1 i] at hRest
      have hHead : (first + (i + 1) == first) = false := beq_eq_false_iff_ne.2 (by omega)
      rw [List.zipIdx_cons, List.map_cons, List.lookup_cons, hHead]
      exact hRest

/-! ## Outcomes -/

theorem mapM_eq_ok_iff {f : β → Except ε γ} {elements : List β} {results : List γ} :
    elements.mapM f = .ok results ↔
      List.Forall₂ (fun element result => f element = .ok result) elements results := by
  induction elements generalizing results with
  | nil =>
    rw [List.mapM_nil, List.forall₂_nil_left_iff]
    exact ⟨fun hNil => (Except.ok.inj hNil).symm, fun hNil => congrArg Except.ok hNil.symm⟩
  | cons element rest ih =>
    rw [List.mapM_cons, bind_eq_ok_iff, List.forall₂_cons_left_iff]
    constructor
    · rintro ⟨result, hResult, hRest⟩
      obtain ⟨later, hLater, hEq⟩ := bind_eq_ok_iff.1 hRest
      exact ⟨result, later, hResult, ih.1 hLater, (Except.ok.inj hEq).symm⟩
    · rintro ⟨result, later, hResult, hLater, rfl⟩
      exact ⟨result, hResult, bind_eq_ok_iff.2 ⟨later, ih.2 hLater, rfl⟩⟩

/-- A computation over a list fails with the first element for which it fails. -/
theorem mapM_eq_error_iff {f : β → Except ε γ} {elements : List β} {cause : ε} :
    elements.mapM f = .error cause ↔
      ∃ before element after, elements = before ++ element :: after ∧
        (∀ earlier ∈ before, ∃ result, f earlier = .ok result) ∧ f element = .error cause := by
  induction elements with
  | nil => simp [pure, Except.pure]
  | cons first rest ih =>
    rw [List.mapM_cons, bind_eq_error_iff]
    constructor
    · rintro (hFirst | ⟨result, hFirst, hRest⟩)
      · exact ⟨[], first, rest, rfl, by simp, hFirst⟩
      · rcases bind_eq_error_iff.1 hRest with hRest | ⟨later, -, hPure⟩
        · obtain ⟨before, element, after, rfl, hBefore, hElement⟩ := ih.1 hRest
          refine ⟨first :: before, element, after, rfl, ?_, hElement⟩
          exact List.forall_mem_cons.2 ⟨⟨result, hFirst⟩, hBefore⟩
        · cases hPure
    · rintro ⟨before, element, after, hElements, hBefore, hElement⟩
      cases before with
      | nil =>
        cases hElements
        exact .inl hElement
      | cons head before =>
        cases hElements
        obtain ⟨⟨result, hFirst⟩, hBefore⟩ := List.forall_mem_cons.1 hBefore
        exact .inr ⟨result, hFirst,
          bind_eq_error_iff.2 (.inl (ih.2 ⟨before, element, after, rfl, hBefore, hElement⟩))⟩

theorem exists_mapM_eq_ok_iff {f : β → Except ε γ} {elements : List β} :
    (∃ results, elements.mapM f = .ok results) ↔
      ∀ element ∈ elements, ∃ result, f element = .ok result := by
  constructor
  · rintro ⟨results, hResults⟩ element hMem
    obtain ⟨result, -, hResult⟩ := exists_of_forall₂ (mapM_eq_ok_iff.1 hResults) hMem
    exact ⟨result, hResult⟩
  · intro hAll
    cases hOutcome : elements.mapM f with
    | ok results => exact ⟨results, rfl⟩
    | error cause =>
      obtain ⟨before, element, after, rfl, -, hElement⟩ := mapM_eq_error_iff.1 hOutcome
      obtain ⟨result, hResult⟩ := hAll element (by simp)
      rw [hElement] at hResult
      cases hResult

/-- What is made of the results does not matter to a computation that fails. -/
theorem mapM_map_eq_error_iff {δ κ : Type} {f : β → Except ε γ} {view : β → δ}
    {g : δ → Except ε κ} {make : β → κ → γ}
    (hMap : ∀ element, f element = (g (view element)).map (make element)) {elements : List β}
    {cause : ε} :
    elements.mapM f = .error cause ↔ (elements.map view).mapM g = .error cause := by
  induction elements with
  | nil => simp [pure, Except.pure]
  | cons element rest ih =>
    rw [List.map_cons, List.mapM_cons, List.mapM_cons, hMap, bind_eq_error_iff, bind_eq_error_iff]
    cases g (view element) with
    | error found => simp [Except.map]
    | ok result => simp [Except.map, bind_eq_error_iff, ih, pure, Except.pure]

/-- If a property is lost on the way through a list, then one step loses it. -/
theorem exists_step_of_foldlM {f : β → γ → Except ε β} {P : β → Prop} {elements : List γ}
    {first last : β} (hRun : elements.foldlM f first = .ok last) (hFirst : P first)
    (hLast : ¬ P last) :
    ∃ before element after state next, elements = before ++ element :: after ∧
      before.foldlM f first = .ok state ∧ P state ∧ f state element = .ok next ∧ ¬ P next := by
  induction elements generalizing first with
  | nil =>
    cases hRun
    exact absurd hFirst hLast
  | cons element rest ih =>
    rw [List.foldlM_cons, bind_eq_ok_iff] at hRun
    obtain ⟨next, hNext, hRest⟩ := hRun
    by_cases hKept : P next
    · obtain ⟨before, later, after, state, lost, rfl, hBefore, hState, hLater, hLost⟩ :=
        ih hRest hKept
      refine ⟨element :: before, later, after, state, lost, rfl, ?_, hState, hLater, hLost⟩
      rw [List.foldlM_cons, hNext]
      exact hBefore
    · exact ⟨[], element, rest, first, next, rfl, rfl, hFirst, hNext, hKept⟩

/-- What every step keeps is kept on the way through a list. -/
theorem property_of_foldlM {f : β → γ → Except ε β} {P : β → Prop} {elements : List γ}
    {first last : β} (hRun : elements.foldlM f first = .ok last) (hFirst : P first)
    (hStep : ∀ state element next, P state → element ∈ elements → f state element = .ok next →
      P next) : P last := by
  by_contra hLast
  obtain ⟨before, element, after, state, next, rfl, -, hState, hNext, hLost⟩ :=
    exists_step_of_foldlM hRun hFirst hLast
  exact hLost (hStep state element next hState (by simp) hNext)

theorem mapM_eq_some_iff {f : β → Option γ} {elements : List β} {results : List γ} :
    elements.mapM f = some results ↔
      List.Forall₂ (fun element result => f element = some result) elements results := by
  induction elements generalizing results with
  | nil => simp [eq_comm]
  | cons element rest ih =>
    simp only [List.mapM_cons, Option.bind_eq_bind, Option.bind_eq_some_iff, Option.pure_def,
      Option.some.injEq, ih, List.forall₂_cons_left_iff]
    constructor
    · rintro ⟨result, hResult, later, hLater, hEq⟩
      exact ⟨result, later, hResult, hLater, hEq.symm⟩
    · rintro ⟨result, later, hResult, hLater, hEq⟩
      exact ⟨result, hResult, later, hLater, hEq.symm⟩

end Autodiff
