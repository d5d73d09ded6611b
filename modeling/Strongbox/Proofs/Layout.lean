import Strongbox.Vault.Sharing
import Strongbox.Proofs.Store

/-!
# Where records live

An entry's key blob is stored at `keys/{key}` and its value at `vault/{key}`; grants live at
`grants/{recipient}/{key}` and the directory at `.well-known/…`. The four families never meet,
as their first characters differ, and within a family the path gives back the name.
-/

namespace Strongbox

namespace Text

theorem points_append (a b : Text) : (a ++ b).points = a.points ++ b.points := rfl

theorem append_left_cancel {p a b : Text} (h : p ++ a = p ++ b) : a = b := by
  have hp : p.points ++ a.points = p.points ++ b.points := by
    rw [← points_append, ← points_append, h]
  exact ext_points (List.append_cancel_left hp)

theorem append_ofString_empty (a : Text) : a ++ Text.ofString "" = a := by
  have h : (Text.ofString "").points = [] := by simp [Text.ofString]
  show (⟨a.points ++ (Text.ofString "").points⟩ : Text) = a
  rw [h, List.append_nil]

/-- Texts whose first code points differ are different. -/
theorem ne_of_head {a b : Text} (h : a.points.head? ≠ b.points.head?) : a ≠ b := by
  intro e
  rw [e] at h
  exact h rfl

end Text

namespace Vault

/-- A path that holds no entry's key blob or value. -/
def OffEntries (p : Text) : Prop := ∀ k, p ≠ keysPrefix ++ k ∧ p ≠ valuesPrefix ++ k

theorem head_keys (k : Text) : (keysPrefix ++ k).points.head? = some 107 := rfl

theorem head_values (k : Text) : (valuesPrefix ++ k).points.head? = some 118 := rfl

theorem head_grantPath (r k : Text) : (Grant.path r k).points.head? = some 103 := rfl

theorem keys_ne_values (k k' : Text) : keysPrefix ++ k ≠ valuesPrefix ++ k' := by
  apply Text.ne_of_head
  rw [head_keys, head_values]
  decide

theorem keys_inj {k k' : Text} : keysPrefix ++ k = keysPrefix ++ k' ↔ k = k' :=
  ⟨Text.append_left_cancel, fun h => h ▸ rfl⟩

theorem values_inj {k k' : Text} : valuesPrefix ++ k = valuesPrefix ++ k' ↔ k = k' :=
  ⟨Text.append_left_cancel, fun h => h ▸ rfl⟩

theorem offEntries_of_head {p : Text} (h1 : p.points.head? ≠ some 107)
    (h2 : p.points.head? ≠ some 118) : OffEntries p := by
  intro k
  constructor
  · apply Text.ne_of_head
    rw [head_keys]
    exact h1
  · apply Text.ne_of_head
    rw [head_values]
    exact h2

theorem offEntries_grantPath (r k : Text) : OffEntries (Grant.path r k) :=
  offEntries_of_head (by rw [head_grantPath]; decide) (by rw [head_grantPath]; decide)

/-- The three directory paths. -/
theorem offEntries_directory {s : String}
    (hs : s = Directory.keyPath ∨ s = Directory.versionPath ∨ s = Directory.spacePath) :
    OffEntries (Text.ofString s) := by
  have hhead : (Text.ofString s).points.head? = some 46 := by
    rcases hs with rfl | rfl | rfl <;> rfl
  exact offEntries_of_head (by rw [hhead]; decide) (by rw [hhead]; decide)

end Vault

end Strongbox
