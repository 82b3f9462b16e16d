import Coordinator.Kit.Text

/-! Frames of dictionaries: a change writes only some keys, and a reader depends only on some.
Where the two sets are apart, the reader sees no change. -/

namespace Coordinator.Kit.Dict

/-- The change from one dictionary to another leaves every key outside the list alone. -/
def Within (names : List String) (before after : Dict) : Prop := ∀ key, key ∉ names → after.find key = before.find key

/-- Two dictionaries hold the same value, or none, under each listed key. -/
def SameOn (names : List String) (a b : Dict) : Prop := ∀ key ∈ names, a.find key = b.find key

section within

variable {names more : List String} {before middle after : Dict} {key : String}

theorem within_refl (names : List String) (fields : Dict) : Within names fields fields := fun _ _ => rfl

theorem Within.trans (first : Within names before middle) (second : Within names middle after) :
    Within names before after := fun key other => (second key other).trans (first key other)

theorem Within.mono (frame : Within names before after) (listed : ∀ name ∈ names, name ∈ more) :
    Within more before after := fun key other => frame key (fun member => other (listed key member))

theorem Within.set (frame : Within names before after) (listed : key ∈ names) (value : Json) :
    Within names before (after.set key value) := by
  intro other outside
  have apart : other ≠ key := fun same => outside (same ▸ listed)
  rw [find_set, if_neg apart]
  exact frame other outside

theorem Within.pop (frame : Within names before after) (listed : key ∈ names) :
    Within names before (after.pop key) := by
  intro other outside
  have apart : other ≠ key := fun same => outside (same ▸ listed)
  rw [find_pop, if_neg apart]
  exact frame other outside

theorem Within.update (frame : Within names before after) {changes : Dict}
    (listed : ∀ entry ∈ changes, entry.1 ∈ names) : Within names before (after.update changes) := by
  induction changes generalizing after with
  | nil => exact frame
  | cons entry rest ih =>
    exact ih (frame.set (listed entry (by simp)) entry.2) (fun other member => listed other (by simp [member]))

theorem Within.find (frame : Within names before after) (other : key ∉ names) : after.find key = before.find key :=
  frame key other

theorem Within.get (frame : Within names before after) (other : key ∉ names) : after.get key = before.get key := by
  rw [Dict.get, Dict.get, frame.find other]

theorem Within.has (frame : Within names before after) (other : key ∉ names) : after.has key = before.has key := by
  rw [Dict.has, Dict.has, frame.find other]

theorem Within.textOr (frame : Within names before after) (other : key ∉ names) :
    after.textOr key = before.textOr key := by
  rw [Dict.textOr, Dict.textOr, frame.find other]

/-- A key of the changed dictionary was there before or is one that the change may write. -/
theorem Within.mem_keys (frame : Within names before after) (member : key ∈ after.keys) :
    key ∈ before.keys ∨ key ∈ names := by
  by_cases listed : key ∈ names
  · exact Or.inr listed
  · rw [mem_keys_iff_has, frame.has listed, ← mem_keys_iff_has] at member
    exact Or.inl member

theorem Within.sameOn (frame : Within names before after) {read : List String}
    (apart : ∀ name ∈ read, name ∉ names) : SameOn read after before :=
  fun name member => frame name (apart name member)

end within

section same

variable {names some : List String} {a b : Dict} {key : String}

theorem SameOn.mono (same : SameOn names a b) (listed : ∀ name ∈ some, name ∈ names) : SameOn some a b :=
  fun name member => same name (listed name member)

theorem SameOn.find (same : SameOn names a b) (listed : key ∈ names) : a.find key = b.find key := same key listed

theorem SameOn.get (same : SameOn names a b) (listed : key ∈ names) : a.get key = b.get key := by
  rw [Dict.get, Dict.get, same.find listed]

theorem SameOn.has (same : SameOn names a b) (listed : key ∈ names) : a.has key = b.has key := by
  rw [Dict.has, Dict.has, same.find listed]

theorem SameOn.textOr (same : SameOn names a b) (listed : key ∈ names) : a.textOr key = b.textOr key := by
  rw [Dict.textOr, Dict.textOr, same.find listed]

theorem SameOn.symm (same : SameOn names a b) : SameOn names b a := fun name member => (same name member).symm

end same

/-- A check of a dictionary with the keys that it reads. -/
structure Check where
  reads : List String
  passes : Dict → Prop
  /-- The verdict depends on the read keys alone. -/
  sees : ∀ {a b : Dict}, SameOn reads a b → passes a → passes b

/-- A check of one value. -/
def Check.ofValue (key : String) (good : Json → Prop) : Check where
  reads := [key]
  passes fields := good (fields.get key)
  sees same passed := same.get (List.mem_singleton_self key) ▸ passed

/-- After a change, only the checks that read a written key have to be made again. -/
theorem Check.preserved {checks : List Check} {names : List String} {before after : Dict}
    (passed : ∀ check ∈ checks, check.passes before) (frame : Within names before after)
    (again : ∀ check ∈ checks, (∃ name ∈ check.reads, name ∈ names) → check.passes after) :
    ∀ check ∈ checks, check.passes after := by
  intro check member
  by_cases touched : ∃ name ∈ check.reads, name ∈ names
  · exact again check member touched
  · have apart : ∀ name ∈ check.reads, name ∉ names := fun name read written => touched ⟨name, read, written⟩
    exact check.sees (frame.sameOn apart).symm (passed check member)

end Coordinator.Kit.Dict
