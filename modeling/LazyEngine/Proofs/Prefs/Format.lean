/-
The record as a text.

* **`Prefs.ofJson_toJson`** — what has been written is read: every record survives, whatever version
  code and whatever text as its time.
-/
import LazyEngine.Prefs.Format
import LazyEngine.Proofs.Json.Objects

namespace LazyEngine.Prefs

open Json

/-- What is written of a record. -/
def members (p : Prefs) : List (String × String) :=
  [(versionField, toString p.lastVersion.toNat)]
    ++ (p.updatedAt.map fun t => (timeField, encode t)).toList

theorem toJson_eq (p : Prefs) : p.toJson = writeObject .pretty p.members := by
  refine String.toList_inj.mp ?_
  simp [toJson, members, writeObject, writeMember, Layout.line, Layout.margin, Layout.gap,
    Function.comp_def]

theorem isObject_toJson (p : Prefs) :
    IsObject (p.members.map fun m => (m.1, m.2.toList)) p.toJson.toList := by
  rw [toJson_eq]
  exact isObject_writeObject .pretty (by simp [members])

/-- What a member of `p` makes of a record that is read. -/
def take (p : Prefs) (key : String) (q : Prefs) : Prefs :=
  if key = versionField then { q with lastVersion := p.lastVersion }
  else if key = timeField then { q with updatedAt := p.updatedAt }
  else q

theorem takes_version (p : Prefs) :
    Takes fields (versionField, (toString p.lastVersion.toNat).toList) (p.take versionField) := by
  have hfit : p.lastVersion.toNat ≤ 0xFFFFFFFF := Nat.le_of_lt_succ p.lastVersion.toNat_lt
  refine ⟨_, stands_toString (hfit.trans (by decide)), .inl ⟨_, rfl, fun q rest => ?_⟩⟩
  simp [natural_of_le hfit, take, Except.map]

theorem takes_time {p : Prefs} {t : String} (h : p.updatedAt = some t) :
    Takes fields (timeField, (encode t).toList) (p.take timeField) := by
  refine ⟨_, (Lexes.text (isText_encode t)).stands, .inl ⟨_, rfl, fun q rest => ?_⟩⟩
  simp [Json.optional, string, take, h, Except.map, show timeField ≠ versionField by decide]

/-- **A record that has been written is read as it was.** -/
theorem ofJson_toJson (p : Prefs) : ofJson p.toJson = .ok p := by
  have hversion := p.takes_version
  have htakes : ∀ m ∈ p.members.map fun m => (m.1, m.2.toList), Takes fields m (p.take m.1) := by
    cases htime : p.updatedAt with
    | none => simpa [members, htime] using hversion
    | some t => simpa [members, htime] using And.intro hversion (takes_time htime)
  rw [ofJson, readRecord_of_isObject p.take {} p.isObject_toJson htakes]
  · obtain ⟨version, time⟩ := p
    cases time <;> rfl
  · cases htime : p.updatedAt <;> simp [members, htime, versionField, timeField]

end LazyEngine.Prefs
