import Autodiff.Scalar.Basic

/-!
# Constructor form

The text of a tree that names every node and its fields, as in
`Add(left=Var(id='x', data=2.0), right=Const(n=1))`. Ids are quoted and data are written
so that their kind can be seen. A foreign value is written like data.
-/

namespace Autodiff

/-- The names of the two fields of an operator. -/
def Op.fieldNames : Op → String × String
  | .pow => ("base", "exp")
  | _ => ("left", "right")

def Expr.constructorForm : Expr Scalar → String
  | var id data => "Var(id=" ++ Text.Quoted.encode id ++ ", data=" ++ data.writeLiteral ++ ")"
  | lit data => "Lit(data=" ++ data.writeLiteral ++ ")"
  | const n => "Const(n=" ++ Text.intText n ++ ")"
  | binary op left right =>
    op.className ++ "(" ++ op.fieldNames.1 ++ "=" ++ left.constructorForm ++ ", " ++
      op.fieldNames.2 ++ "=" ++ right.constructorForm ++ ")"
  | unary fn operand => fn.className ++ "(value=" ++ operand.constructorForm ++ ")"
  | foreign value => value.writeLiteral

end Autodiff
