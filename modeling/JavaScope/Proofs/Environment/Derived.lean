import JavaScope.Proofs.Binding.Signature
import JavaScope.Proofs.Environment.Composition
import JavaScope.Proofs.Environment.TopLevel
import Mathlib.Data.List.Nodup

/-!
# Derived types

A derived type is made once for its key, so different keys stand for different types. The key of an
array type is a text for its element with a pair of brackets for every dimension. So arrays of
different dimensions over one element are different types.
-/

namespace JavaScope

namespace Environment

/-! ## Different keys -/

/-- The derived types of an environment are in its store, and no type is filed under two keys. -/
structure DerivesApart (e : Environment) : Prop where
  has : ∀ entry ∈ e.derived, e.store.Has (.type entry.2)
  apart : (e.derived.map Prod.snd).Nodup

namespace DerivesApart

variable {e : Environment} {s : Store}

theorem key_eq (h : e.DerivesApart) {key key' : String} {t : TypeId}
    (found : e.derived.lookup key = some t) (found' : e.derived.lookup key' = some t) :
    key = key' := by
  have same := List.inj_on_of_nodup_map h.apart (mem_of_lookup found) (mem_of_lookup found') rfl
  exact congrArg Prod.fst same

theorem setStore (h : e.DerivesApart) (size : e.store.types.size ≤ s.types.size) :
    DerivesApart { e with store := s } where
  has entry member := Nat.lt_of_lt_of_le (h.has entry member) size
  apart := h.apart

theorem addType (h : e.DerivesApart) (b : TypeBinding) :
    DerivesApart { e with store := (e.store.addType b).2 } :=
  h.setStore (by simp)

/-- A new type is none of those that are filed already. -/
theorem derive (h : e.DerivesApart) (key : String) (b : TypeBinding) :
    DerivesApart { e with
      store := (e.store.addType b).2
      derived := (key, (e.store.addType b).1) :: e.derived } where
  has entry member := by
    have size : e.store.types.size < (e.store.addType b).2.types.size := by simp
    rcases List.mem_cons.1 member with rfl | member
    · exact size
    · exact Nat.lt_trans (h.has entry member) size
  apart := by
    refine List.nodup_cons.2 ⟨fun member => ?_, h.apart⟩
    obtain ⟨entry, there, same⟩ := List.mem_map.1 member
    have old : entry.2.index < e.store.types.size := h.has entry there
    rw [same] at old
    exact Nat.lt_irrefl _ old

end DerivesApart

instance : LastsEntries DerivesApart where
  addType h _ _ := h.addType _
  recover h _ := ⟨(h.addType _).has, h.apart⟩
  derive h _ _ _ := h.derive _ _

instance (b : BindingId) : Outlasts b DerivesApart where
  modifyType _ _ := .modify fun e h => h.setStore (by simp)
  modifyVariable _ _ := .modify fun e h => h.setStore (Nat.le_refl _)
  modifyMethod _ _ := .modify fun e h => h.setStore (Nat.le_refl _)

/-- In a built environment no type is filed under two keys. -/
theorem build_derivesApart {c : Context} {e : Environment} (built : build c = .ok e) :
    e.DerivesApart := by
  obtain ⟨d, declares, completes⟩ := build_eq_ok built
  have start : d.toEnvironment.DerivesApart := by
    have nothing : d.toEnvironment.derived = [] := (declared_lists declares).derived
    refine ⟨?_, ?_⟩ <;> rw [nothing]
    · nofun
    · exact List.nodup_nil
  exact (Keeps.forM fun entry _ => keeps_complete entry.1 entry.2).ensures _ start () e completes

/-! ## Arrays of different dimensions -/

/-- What is derived, and what it leaves in the table, tells the key. -/
theorem key_eq_of_outcome {e e' : Environment} (apart : e.DerivesApart) {key key' : String}
    {b b' : TypeBinding} {t : TypeId} (run : outcome (derivedType key b) e = (.ok t, e'))
    (run' : outcome (derivedType key' b') e = (.ok t, e')) : key = key' := by
  rcases outcome_derivedType run with ⟨found, same⟩ | ⟨-, -, made⟩ <;>
    rcases outcome_derivedType run' with ⟨found', same'⟩ | ⟨-, -, made'⟩
  · exact apart.key_eq found found'
  · rw [same] at made'
    exact absurd made'.symm (List.cons_ne_self _ _)
  · rw [same'] at made
    exact absurd made.symm (List.cons_ne_self _ _)
  · exact congrArg Prod.fst (List.cons.inj (made.symm.trans made')).1

/-- Arrays of different dimensions over one element are different types, or leave different
environments behind. -/
theorem dimensions_eq_of_outcome {e e' : Environment} (apart : e.DerivesApart)
    {element t : TypeId} (own : 0 ≤ (e.store.type element).dimensions) {j k : Int} (hj : 0 < j)
    (hk : 0 < k) (run : outcome (arrayOf (some element) j) e = (.ok (some t), e'))
    (run' : outcome (arrayOf (some element) k) e = (.ok (some t), e')) : j = k := by
  have store : outcome (EnvironmentM.read store) e = (.ok e.store, e) := rfl
  obtain ⟨inner, _, ⟨⟩, innermost, run⟩ := outcome_arrayOf_eq_ok hj run
  obtain ⟨_, _, ⟨⟩, innermost', run'⟩ := outcome_arrayOf_eq_ok hk run'
  cases innermost.symm.trans innermost'
  rw [flatArrayOf, outcome_bind_of_ok store] at run run'
  obtain ⟨text, key, run⟩ := outcome_ofExcept_bind_eq_ok.1 run
  obtain ⟨text', key', run'⟩ := outcome_ofExcept_bind_eq_ok.1 run'
  cases key.symm.trans key'
  have same := String.append_right_inj text |>.1 (key_eq_of_outcome apart run run')
  have added : 0 ≤ if (e.store.type element).isArray then (e.store.type element).dimensions
      else 0 := by
    split <;> omega
  have := brackets_inj (by omega) (by omega) same
  omega

end Environment

end JavaScope
