import ApiScribe.Finding
import ApiScribe.ModulePath

/-!
# Component names

Every component gets one name. The first to ask for a name gets it; others get it with their
module in front, and a number behind if that is taken too.
-/

namespace ApiScribe

/-- The names given so far, latest last. -/
structure ComponentNames where
  assigned : List (QualifiedName × String) := []
deriving Repr, Inhabited

namespace ComponentNames

/-- The name given to a declaration. -/
def get? (names : ComponentNames) (canonical : QualifiedName) : Option String :=
  (names.assigned.find? fun entry => entry.1 = canonical).map Prod.snd

/-- The declaration that has a name. -/
def holder? (names : ComponentNames) (name : String) : Option QualifiedName :=
  (names.assigned.find? fun entry => entry.2 = name).map Prod.fst

/-- Whether a name is taken. -/
def isTaken (names : ComponentNames) (name : String) : Bool := (names.holder? name).isSome

/-- The first free name among `stem2`, `stem3`, ... from a number on. -/
def firstNumbered (names : ComponentNames) (stem : String) : Nat → Nat → String
  | 0, number => stem ++ Text.decimal number
  | fuel + 1, number =>
    let candidate := stem ++ Text.decimal number
    if names.isTaken candidate then firstNumbered names stem fuel (number + 1) else candidate

/-- The first free name among `stem`, `stem2`, `stem3`, ... -/
def firstFree (names : ComponentNames) (stem : String) : String :=
  if names.isTaken stem then names.firstNumbered stem names.assigned.length 2 else stem

/-- Give a name to a declaration that has none. -/
def give (names : ComponentNames) (canonical : QualifiedName) (name : String) : ComponentNames :=
  ⟨names.assigned ++ [(canonical, name)]⟩

/-- Name a declaration, which asks for the preferred name; it keeps a name that it has. -/
def assign (names : ComponentNames) (canonical : QualifiedName) (preferred : String) :
    String × ComponentNames × List Finding :=
  match names.get? canonical with
  | some name => (name, names, [])
  | none =>
    match names.holder? preferred with
    | none => (preferred, names.give canonical preferred, [])
    | some holder =>
      let name := names.firstFree (canonical.module.dotted ++ "." ++ preferred)
      (name, names.give canonical name,
        [⟨canonical.display, .nameTaken preferred holder.display name⟩])

end ComponentNames

end ApiScribe
