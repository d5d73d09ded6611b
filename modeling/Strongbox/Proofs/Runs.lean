import Strongbox.Vault.Basic
import Strongbox.Proofs.Store

/-!
# Running vault operations

`exec m w` is the outcome of a vault operation run from the world `w`, with the world it
leaves. One equation per primitive says what it does; callers rewrite with these and never
unfold the primitives. Store calls are stated for a vault with no faults, as a plain store
has: each then reads, writes or lists its space and cannot fail.
-/

namespace Strongbox

namespace Vault

variable {α β : Type}

/-- The outcome of an operation run from a world, and the world it leaves. -/
def exec (m : VaultM α) (w : World) : Except Failure α × World := m.run.run w

/-! ## Control -/

@[simp] theorem exec_pure (a : α) (w : World) : exec (pure a) w = (.ok a, w) := rfl

@[simp] theorem exec_throw (e : Failure) (w : World) :
    exec (throw e : VaultM α) w = (.error e, w) := rfl

theorem exec_bind (m : VaultM α) (f : α → VaultM β) (w : World) :
    exec (m >>= f) w = match exec m w with
      | (.ok a, w') => exec (f a) w'
      | (.error e, w') => (.error e, w') := by
  simp only [exec, ExceptT.run_bind, StateT.run_bind]
  rcases h : (m.run.run w) with ⟨r, w'⟩
  cases r <;> rfl

/-- A step that succeeds, followed by the rest. -/
theorem exec_bind_ok {m : VaultM α} {f : α → VaultM β} {w w' : World} {a : α}
    (h : exec m w = (.ok a, w')) : exec (m >>= f) w = exec (f a) w' := by
  rw [exec_bind, h]

/-- A step that fails ends the run. -/
theorem exec_bind_error {m : VaultM α} {f : α → VaultM β} {w w' : World} {e : Failure}
    (h : exec m w = (.error e, w')) : exec (m >>= f) w = (.error e, w') := by
  rw [exec_bind, h]

/-- A run that succeeds succeeded in its first step, and in the rest from where it left. -/
theorem exec_bind_eq_ok {m : VaultM α} {f : α → VaultM β} {w w'' : World} {b : β}
    (h : exec (m >>= f) w = (.ok b, w'')) :
    ∃ a w', exec m w = (.ok a, w') ∧ exec (f a) w' = (.ok b, w'') := by
  rw [exec_bind] at h
  rcases hm : exec m w with ⟨r, w'⟩
  rw [hm] at h
  cases r with
  | ok a => exact ⟨a, w', rfl, h⟩
  | error e => cases h

/-- A run whose rest changes no world ends where its first step does. -/
theorem exec_bind_snd (m : VaultM α) {f : α → VaultM β} (hf : ∀ a w, (exec (f a) w).2 = w)
    (w : World) : (exec (m >>= f) w).2 = (exec m w).2 := by
  rw [exec_bind]
  rcases exec m w with ⟨r, w'⟩
  cases r with
  | ok a => exact hf a w'
  | error e => rfl

theorem exec_map (g : α → β) (m : VaultM α) (w : World) :
    exec (g <$> m) w = ((exec m w).1.map g, (exec m w).2) := by
  rw [← bind_pure_comp, exec_bind]
  rcases exec m w with ⟨r, w'⟩
  cases r <;> rfl

theorem exec_tryCatch (m : VaultM α) (h : Failure → VaultM α) (w : World) :
    exec (tryCatch m h) w = match exec m w with
      | (.ok a, w') => (.ok a, w')
      | (.error e, w') => exec (h e) w' := by
  simp only [exec]
  show (ExceptT.tryCatch m h).run.run w = _
  simp only [ExceptT.tryCatch, ExceptT.run_mk, StateT.run_bind]
  rcases hm : (m.run.run w) with ⟨r, w'⟩
  rw [show StateT.run m w = StateT.run (ExceptT.run m) w from rfl, hm]
  cases r <;> rfl

@[simp] theorem exec_liftExcept (x : Except Failure α) (w : World) :
    exec (liftExcept x) w = (x, w) := by
  cases x <;> rfl

/-! ## State -/

@[simp] theorem exec_get (w : World) : exec (get : VaultM World) w = (.ok w, w) := rfl

@[simp] theorem exec_set (w' w : World) : exec (set w' : VaultM Unit) w = (.ok (), w') := rfl

@[simp] theorem exec_modify (f : World → World) (w : World) :
    exec (modify f : VaultM Unit) w = (.ok (), f w) := rfl

@[simp] theorem exec_current (w : World) : exec current w = (.ok w.vault, w) := rfl

@[simp] theorem exec_update (f : Vault → Vault) (w : World) :
    exec (update f) w = (.ok (), { w with vault := f w.vault }) := rfl

/-- Drawing changes the entropy and nothing else. -/
theorem exec_drawing (m : Drawing α) (w : World) :
    exec (drawing m) w =
      ((m.run.run w.entropy).1, { w with entropy := (m.run.run w.entropy).2 }) := by
  simp only [drawing, exec_bind, exec_get]
  rcases (m.run.run w.entropy) with ⟨r, e⟩
  cases r <;> rfl

theorem exec_requireUnlocked (w : World) :
    exec requireUnlocked w = match w.vault.masterKey, w.vault.identity with
      | some k, some i => (.ok (k, i), w)
      | _, _ => (.error .locked, w) := by
  simp only [requireUnlocked, exec_bind, exec_current]
  cases w.vault.masterKey <;> cases w.vault.identity <;> rfl

theorem exec_requireUnlocked_eq_ok {w w' : World} {k : ByteArray} {i : Keys.Identity}
    (h : exec requireUnlocked w = (.ok (k, i), w')) :
    w.vault.masterKey = some k ∧ w.vault.identity = some i ∧ w' = w := by
  rw [exec_requireUnlocked] at h
  cases hk : w.vault.masterKey <;> cases hi : w.vault.identity <;> simp_all

theorem exec_liftExcept_eq_ok {x : Except Failure α} {w w' : World} {a : α}
    (h : exec (liftExcept x) w = (.ok a, w')) : x = .ok a ∧ w' = w := by
  rw [exec_liftExcept] at h
  simp only [Prod.mk.injEq] at h
  exact ⟨h.1, h.2.symm⟩

theorem exec_requireUnlocked_of {w : World} {k : ByteArray} {i : Keys.Identity}
    (hk : w.vault.masterKey = some k) (hi : w.vault.identity = some i) :
    exec requireUnlocked w = (.ok (k, i), w) := by
  rw [exec_requireUnlocked, hk, hi]

/-! ## Store calls without faults -/

section Plain

variable {w : World} (hf : w.vault.faults = [])
include hf

theorem exec_meetFaults (op : Operation) (path : Text) : exec (meetFaults op path) w = (.ok (), w) := by
  simp only [meetFaults, exec_bind, exec_current, hf, Fault.fire]
  rfl

theorem exec_storeGet (path : Text) (space : Option Text) :
    exec (storeGet path space) w =
      (.ok (w.store.find? (w.vault.session.resolve space) path),
        { w with store := w.store.touch (w.vault.session.resolve space) }) := by
  simp only [storeGet, exec_bind, exec_meetFaults hf, exec_get, exec_set, exec_pure]
  rfl

theorem exec_storePut (path : Text) (data : Data) (metadata : List (Value × Value))
    (space : Option Text) :
    exec (storePut path data metadata space) w =
      (.ok (), { w with
        store := w.store.write (w.vault.session.resolve space) path ⟨data, metadata⟩ }) := by
  simp only [storePut, exec_bind, exec_meetFaults hf, exec_modify]
  rfl

theorem exec_storeDelete (path : Text) (space : Option Text) :
    exec (storeDelete path space) w =
      (.ok (), { w with store := w.store.erase (w.vault.session.resolve space) path }) := by
  simp only [storeDelete, exec_bind, exec_meetFaults hf, exec_modify]
  rfl

theorem exec_storeList (pathPrefix : Text) :
    exec (storeList pathPrefix) w =
      (.ok (w.store.listing w.vault.session.space pathPrefix true),
        { w with store := w.store.touch w.vault.session.space }) := by
  simp only [storeList, exec_bind, exec_meetFaults hf, exec_get, exec_set, exec_pure]
  rfl

theorem exec_storeGetPublic (space path : Text) :
    exec (storeGetPublic space path) w = (.ok (w.store.find? space path), w) := by
  simp only [storeGetPublic, exec_bind, exec_meetFaults hf, exec_get, exec_pure]
  rfl

end Plain

end Vault

end Strongbox
