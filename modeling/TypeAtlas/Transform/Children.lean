import TypeAtlas.Transform.Catalogue

/-!
# Child transforms

A type knows the transforms of its descendants and finds the one that applies
to a descendant, or the one that gives a surrogate.  Answers about names that
the provider knows are remembered, up to a limit.
-/

namespace TypeAtlas

namespace ChildTransforms

/-- The side of a transform that is looked at. -/
inductive Side where
  | normal | surrogate
  deriving Repr, DecidableEq

def Side.typeOf : Side → Transform → TypeName
  | .normal, transform => transform.normal
  | .surrogate, transform => transform.surrogate

/-- The greatest number of answers remembered for each side. -/
def memoLimit : Nat := 1024

/-- The answers remembered for one side: the place of a child, or none. -/
abbrev Memo := NameMap (Option Nat)

/-- The answers remembered for both sides. -/
structure Memos where
  normal : Memo := NameMap.empty
  surrogate : Memo := NameMap.empty

instance : Inhabited Memos := ⟨{}⟩

namespace Memos

def get (memos : Memos) : Side → Memo
  | .normal => memos.normal
  | .surrogate => memos.surrogate

def set (memos : Memos) (memo : Memo) : Side → Memos
  | .normal => { memos with normal := memo }
  | .surrogate => { memos with surrogate := memo }

end Memos

/-- Whether a type descends from another; without a provider, equals it. -/
def descends (provider? : Option Provider) (sub sup : TypeName) : Bool :=
  match provider? with
  | some provider => provider.isSubtype sub sup
  | none => sub == sup

/-- The place of the first child whose type on a side applies to a name. -/
def place? (children : List Transform) (provider? : Option Provider)
    (side : Side) (name : TypeName) : Option Nat :=
  children.findIdx? fun child => descends provider? name (side.typeOf child)

def isKnown (provider? : Option Provider) (name : TypeName) : Bool :=
  provider?.any fun provider => (provider.known? name).isSome

/-- The crash in which finding the place ends.  The first child that does not
carry the name itself makes the provider walk the ancestors of the name. -/
def placeCrash? (children : List Transform) (provider? : Option Provider)
    (side : Side) (name : TypeName) : Option Crash := do
  let provider ← provider?
  let child ← children.head?
  provider.subtypeCrash? name (side.typeOf child)

/-- The first child whose type on a side applies to a name, with the answers
remembered afterwards. -/
def lookup (children : List Transform) (provider? : Option Provider)
    (side : Side) (name : TypeName) (memos : Memos) :
    Except Crash (Option Transform × Memos) :=
  if children.isEmpty then .ok (none, memos)
  else
    let memo := memos.get side
    match memo.get? name with
    | some place => .ok (place.bind (children[·]?), memos)
    | none =>
      let mayRemember := memo.size < memoLimit
      let crash? :=
        (placeCrash? children provider? side name).or <|
          if mayRemember then provider?.bind (·.crash? name) else none
      match crash? with
      | some crash => .error crash
      | none =>
        let place := place? children provider? side name
        let memos :=
          if mayRemember && isKnown provider? name then
            memos.set (memo.insert name place) side
          else
            memos
        .ok (place.bind (children[·]?), memos)

end ChildTransforms

end TypeAtlas
