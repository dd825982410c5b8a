/-!
# Type expressions

A type expression is a type name with ordered type arguments, such as
`Map<String,List<Node>>`.  An expression without arguments names one type; an
expression with arguments names a specialization of its head type.
-/

namespace TypeAtlas

abbrev TypeName := String

/-- A type name applied to ordered type arguments. -/
structure TypeExpr where
  /-- The head type. -/
  name : TypeName
  /-- The type arguments, none for a plain type. -/
  args : List TypeExpr
  deriving Repr, BEq, Inhabited

namespace TypeExpr

mutual

def decEq : (first second : TypeExpr) → Decidable (first = second)
  | ⟨name, args⟩, ⟨name', args'⟩ =>
    if sameName : name = name' then
      match decEqList args args' with
      | isTrue sameArgs => isTrue (by rw [sameName, sameArgs])
      | isFalse otherArgs => isFalse fun same =>
          otherArgs (congrArg TypeExpr.args same)
    else
      isFalse fun same => sameName (congrArg TypeExpr.name same)

def decEqList : (first second : List TypeExpr) → Decidable (first = second)
  | [], [] => isTrue rfl
  | [], _ :: _ => isFalse (by simp)
  | _ :: _, [] => isFalse (by simp)
  | head :: tail, head' :: tail' =>
    match decEq head head', decEqList tail tail' with
    | isTrue sameHead, isTrue sameTail => isTrue (by rw [sameHead, sameTail])
    | isFalse otherHead, _ => isFalse fun same =>
        otherHead (List.cons.inj same).1
    | _, isFalse otherTail => isFalse fun same =>
        otherTail (List.cons.inj same).2

end

instance : DecidableEq TypeExpr := decEq

/-- The expression that names one type and has no arguments. -/
def named (name : TypeName) : TypeExpr :=
  ⟨name, []⟩

def isParameterized (expression : TypeExpr) : Bool :=
  !expression.args.isEmpty

mutual

/-- Every name in the expression, a head before its arguments. -/
def names : TypeExpr → List TypeName
  | ⟨name, args⟩ => name :: namesOfList args

def namesOfList : List TypeExpr → List TypeName
  | [] => []
  | expression :: rest => names expression ++ namesOfList rest

end

theorem names_eq (expression : TypeExpr) :
    expression.names = expression.name :: namesOfList expression.args := by
  cases expression
  rw [names]

theorem name_mem_names (expression : TypeExpr) :
    expression.name ∈ expression.names := by
  rw [expression.names_eq]
  exact List.mem_cons_self

theorem namesOfList_eq (expressions : List TypeExpr) :
    namesOfList expressions = expressions.flatMap names := by
  induction expressions with
  | nil => rw [namesOfList]; rfl
  | cons expression rest ih => rw [namesOfList, ih, List.flatMap_cons]

theorem names_subset_namesOfList {expression : TypeExpr}
    {expressions : List TypeExpr} (member : expression ∈ expressions) :
    expression.names ⊆ namesOfList expressions := by
  intro name within
  rw [namesOfList_eq]
  exact List.mem_flatMap.2 ⟨expression, member, within⟩

mutual

/-- The text of an expression: arguments stand between angle brackets, separated
by commas and without blanks. -/
def render : TypeExpr → String
  | ⟨name, []⟩ => name
  | ⟨name, first :: rest⟩ =>
    name ++ "<" ++ render first ++ renderMore rest ++ ">"

/-- The text of the arguments after the first, each behind its comma. -/
def renderMore : List TypeExpr → String
  | [] => ""
  | expression :: rest => "," ++ render expression ++ renderMore rest

end

end TypeExpr

/-- What follows the last occurrence of a separator, or `none` where it does not
occur. -/
def afterLast? (separator : List Char) : List Char → Option (List Char)
  | [] => none
  | character :: rest =>
    (afterLast? separator rest).or <|
      if separator.isPrefixOf (character :: rest) then
        some ((character :: rest).drop separator.length)
      else
        none

/-- The last segment of a qualified type name: what follows its last double
colon, and of that what follows the last dot. -/
def simpleName (name : TypeName) : String :=
  let segment := (afterLast? [':', ':'] name.toList).getD name.toList
  String.ofList ((afterLast? ['.'] segment).getD segment)

end TypeAtlas
