import JavaScope.Binding.Flags
import JavaScope.Binding.Signature
import JavaScope.Binding.Visibility

/-!
# Binding requests

A request is offered candidates one at a time and answers whether the search may stop. One kind of
request collects the bindings of different signatures; the other looks for one binding and notes
whether it is found, and whether a nearer declaration hides it. A request keeps what it noted before
a fault.
-/

namespace JavaScope

/-- An action on the state of a request, which outlives a fault. -/
abbrev RequestM (σ : Type) := ExceptT Fault (StateM σ)

/-- A state that can be offered candidates. A missing candidate stands for an unresolved name. -/
class Request (σ : Type) where
  accept : Store → Option BindingId → RequestM σ Bool

/-- Offers the candidates until the request stops; answers whether it did, and how many candidates
were drawn. -/
def Request.feed {σ : Type} [Request σ] (s : Store) :
    List (Option BindingId) → RequestM σ (Bool × Nat)
  | [] => return (false, 0)
  | candidate :: rest => do
    if ← Request.accept s candidate then return (true, 1)
    let (stopped, drawn) ← Request.feed s rest
    return (stopped, drawn + 1)

/-! ## Collecting -/

/-- A request for the bindings of different signatures. -/
structure Collection where
  parentType : Option TypeId
  flags : Flags
  bindings : List BindingId
  signatures : List String

namespace Collection

/-- A request without any binding yet. -/
def new (parentType : Option TypeId) (flags : Flags) : Collection :=
  ⟨parentType, flags, [], []⟩

/-- Collects a candidate whose signature is new; never stops. -/
def accept (s : Store) (candidate : Option BindingId) : RequestM Collection Bool := do
  match candidate with
  | none => return false
  | some b =>
    let signature ← ofExcept (s.signature b)
    modify fun c =>
      if c.signatures.contains signature then c
      else { c with bindings := c.bindings ++ [b], signatures := signature :: c.signatures }
    return false

instance : Request Collection := ⟨accept⟩

/-- Goes through the bindings from the last to the first, given as `rest` in that order, and drops
those that cannot be accessed. A fault leaves the remaining ones in place. -/
def sweep (visible : BindingId → Except Fault Bool) (kept : List BindingId) :
    List BindingId → List BindingId × Option Fault
  | [] => (kept, none)
  | b :: rest =>
    match visible b with
    | .ok true => sweep visible (b :: kept) rest
    | .ok false => sweep visible kept rest
    | .error fault => (rest.reverse ++ b :: kept, some fault)

/-- The collected bindings in the order in which they came. Where access is checked, those that
cannot be accessed are dropped for good. -/
def requested (s : Store) : RequestM Collection (List BindingId) := do
  let c ← get
  if c.flags.checkVisibility then
    let (kept, fault) := sweep (fun b => s.isVisible b c.parentType) [] c.bindings.reverse
    set { c with bindings := kept }
    match fault with
    | some fault => throw fault
    | none => return kept
  else return c.bindings

end Collection

/-! ## Looking for one binding -/

/-- A request for one binding. -/
structure Search where
  target : Option BindingId
  parentType : Option TypeId
  flags : Flags
  found : Bool
  visible : Bool

namespace Search

/-- A request that has seen no candidate yet. -/
def new (target : Option BindingId) (parentType : Option TypeId) (flags : Flags) : Search :=
  ⟨target, parentType, flags, false, true⟩

/-- The candidate is, by its own declaration, another binding with the target's name and
signature. -/
def hides (s : Store) (candidate target : BindingId) : Except Fault Bool := do
  let declaration := s.declarationOf candidate
  if s.name declaration == s.name target then
    return (← s.signature declaration) == (← s.signature target)
  else return false

/-- Stops at the target, and at a candidate that hides it. -/
def accept (s : Store) (candidate : Option BindingId) : RequestM Search Bool := do
  let r ← get
  if r.found then return true
  match candidate with
  | none => return false
  | some b =>
    let target ← ofExcept (needed r.target)
    if b.kind ≠ target.kind then return false
    -- `found` is noted before the access check, which may fail
    if b = target ∨ s.declarationOf b = target then
      set { r with found := true }
      if r.flags.checkVisibility then
        let visible ← ofExcept (s.isVisible b r.parentType)
        set { r with found := true, visible := visible }
      return true
    else
      let hidden ← ofExcept (hides s b target)
      if hidden && r.flags.checkVisibility then set { r with visible := false }
      return hidden

instance : Request Search := ⟨accept⟩

end Search

end JavaScope
