import Strongbox.Proofs.Runs

/-!
# What an operation changes and how it fails

Two predicates on vault operations, each closed under the ways operations are built. `Stays R m`
says that every run of `m`, from any world, ends in a world that `R` relates to the one it
started from, whether it succeeds or fails; for a relation that is reflexive and transitive an
operation stays when each of its steps does. `FailsOnly P m` says that every failure of `m`, from
any world, satisfies `P`: a failure is a failure of one of its steps, or one a handler threw.
The store calls fail only as the store does, with a store failure or an injected integrity
failure.
-/

namespace Strongbox

namespace Failure

/-- A failure a store call gives: the store refused it, or an injected integrity failure. -/
def IsStoreFailure (f : Failure) : Prop :=
  (∃ op path, f = .storage op path) ∨ f = .injectedIntegrity

theorem IsStoreFailure.isVaultFailure {f : Failure} (h : f.IsStoreFailure) :
    f.isVaultFailure = true := by
  rcases h with ⟨op, path, rfl⟩ | rfl <;> rfl

end Failure

namespace Vault

/-- A relation between worlds that holds of every world and itself and composes. -/
structure WorldOrder where
  rel : World → World → Prop
  refl : ∀ w, rel w w
  trans : ∀ {a b c : World}, rel a b → rel b c → rel a c

variable {α β : Type}

/-! ## Staying -/

/-- Every run of `m` ends in a world that `R` relates to its start. -/
def Stays (R : WorldOrder) (m : VaultM α) : Prop := ∀ w, R.rel w (exec m w).2

namespace Stays

variable {R : WorldOrder}

theorem pure (a : α) : Stays R (pure a : VaultM α) := fun w => R.refl w

theorem throw (e : Failure) : Stays R (throw e : VaultM α) := fun w => R.refl w

theorem liftExcept (x : Except Failure α) : Stays R (liftExcept x) := by
  intro w
  rw [exec_liftExcept]
  exact R.refl w

theorem current : Stays R current := fun w => R.refl w

theorem requireUnlocked : Stays R requireUnlocked := by
  intro w
  rw [exec_requireUnlocked]
  cases w.vault.masterKey <;> cases w.vault.identity <;> exact R.refl w

theorem bind {m : VaultM α} {f : α → VaultM β} (hm : Stays R m) (hf : ∀ a, Stays R (f a)) :
    Stays R (m >>= f) := by
  intro w
  rw [exec_bind]
  rcases h : exec m w with ⟨r, w'⟩
  have h₁ : R.rel w w' := by
    have := hm w
    rwa [h] at this
  cases r with
  | ok a => exact R.trans h₁ (hf a w')
  | error e => exact h₁

theorem tryCatch {m : VaultM α} {h : Failure → VaultM α} (hm : Stays R m)
    (hh : ∀ e, Stays R (h e)) : Stays R (tryCatch m h) := by
  intro w
  rw [exec_tryCatch]
  rcases hr : exec m w with ⟨r, w'⟩
  have h₁ : R.rel w w' := by
    have := hm w
    rwa [hr] at this
  cases r with
  | ok a => exact h₁
  | error e => exact R.trans h₁ (hh e w')

theorem map {m : VaultM α} (g : α → β) (hm : Stays R m) : Stays R (g <$> m) := by
  intro w
  rw [exec_map]
  exact hm w

theorem forIn {xs : List α} {init : β} {f : α → β → VaultM (ForInStep β)}
    (hf : ∀ x b, Stays R (f x b)) : Stays R (forIn xs init f) := by
  induction xs generalizing init with
  | nil => exact fun w => by rw [List.forIn_nil]; exact R.refl w
  | cons x xs ih =>
    rw [List.forIn_cons]
    refine bind (hf x init) fun step => ?_
    cases step with
    | done b => exact pure b
    | yield b => exact ih

end Stays

/-! ## Failing -/

/-- Every failure of `m`, from any world, satisfies `P`. -/
def FailsOnly (P : Failure → Prop) (m : VaultM α) : Prop :=
  ∀ w f, (exec m w).1 = .error f → P f

namespace FailsOnly

variable {P Q : Failure → Prop}

theorem mono {m : VaultM α} (hm : FailsOnly P m) (h : ∀ f, P f → Q f) : FailsOnly Q m :=
  fun w f hf => h f (hm w f hf)

theorem pure (a : α) : FailsOnly P (pure a : VaultM α) := fun _ _ h => nomatch h

theorem throw {e : Failure} (he : P e) : FailsOnly P (throw e : VaultM α) := by
  intro w f h
  rw [exec_throw, Except.error.injEq] at h
  exact h ▸ he

theorem liftExcept {x : Except Failure α} (hx : ∀ f, x = .error f → P f) :
    FailsOnly P (liftExcept x) := by
  intro w f h
  rw [exec_liftExcept] at h
  exact hx f h

theorem current : FailsOnly P current := fun _ _ h => nomatch h

theorem update (g : Vault → Vault) : FailsOnly P (update g) := fun _ _ h => nomatch h

theorem requireUnlocked (hl : P .locked) : FailsOnly P requireUnlocked := by
  intro w f h
  rw [exec_requireUnlocked] at h
  cases hk : w.vault.masterKey <;> cases hi : w.vault.identity <;>
    simp only [hk, hi, Except.error.injEq, reduceCtorEq] at h <;> exact h ▸ hl

theorem bind {m : VaultM α} {g : α → VaultM β} (hm : FailsOnly P m)
    (hg : ∀ a, FailsOnly P (g a)) : FailsOnly P (m >>= g) := by
  intro w f h
  rw [exec_bind] at h
  rcases hr : exec m w with ⟨r, w'⟩
  rw [hr] at h
  cases r with
  | ok a => exact hg a w' f h
  | error e =>
    have he : (exec m w).1 = .error e := by rw [hr]
    exact (Except.error.inj h) ▸ hm w e he

/-- A handler sees only failures of the operation it guards. -/
theorem tryCatch {m : VaultM α} {h : Failure → VaultM α} (hm : FailsOnly Q m)
    (hh : ∀ e, Q e → FailsOnly P (h e)) : FailsOnly P (tryCatch m h) := by
  intro w f hf
  rw [exec_tryCatch] at hf
  rcases hr : exec m w with ⟨r, w'⟩
  rw [hr] at hf
  cases r with
  | ok a => cases hf
  | error e =>
    have he : (exec m w).1 = .error e := by rw [hr]
    exact hh e (hm w e he) w' f hf

theorem map {m : VaultM α} (g : α → β) (hm : FailsOnly P m) : FailsOnly P (g <$> m) := by
  intro w f h
  rw [exec_map] at h
  cases hr : (exec m w).1 with
  | ok a => rw [hr] at h; cases h
  | error e => rw [hr] at h; exact (Except.error.inj h) ▸ hm w e hr

theorem forIn {xs : List α} {init : β} {f : α → β → VaultM (ForInStep β)}
    (hf : ∀ x b, FailsOnly P (f x b)) : FailsOnly P (forIn xs init f) := by
  induction xs generalizing init with
  | nil => rw [List.forIn_nil]; exact pure init
  | cons x xs ih =>
    rw [List.forIn_cons]
    refine bind (hf x init) fun step => ?_
    cases step with
    | done b => exact pure b
    | yield b => exact ih

end FailsOnly

/-! ## Store calls -/

theorem failsOnly_meetFaults (op : Operation) (path : Text) :
    FailsOnly Failure.IsStoreFailure (meetFaults op path) := by
  unfold meetFaults
  refine FailsOnly.bind FailsOnly.current fun v => ?_
  split
  · exact FailsOnly.pure _
  · rename_i f fs _
    refine FailsOnly.bind (FailsOnly.update _) fun _ => FailsOnly.throw ?_
    cases f.integrity
    · exact .inl ⟨_, _, rfl⟩
    · exact .inr rfl

/-- A store call that meets no fault cannot fail afterwards. -/
theorem failsOnly_after_faults {γ : Type} (op : Operation) (path : Text) (rest : VaultM γ)
    (hrest : ∀ w f, (exec rest w).1 ≠ .error f) :
    FailsOnly Failure.IsStoreFailure (meetFaults op path >>= fun _ => rest) :=
  (failsOnly_meetFaults op path).bind fun _ w f h => absurd h (hrest w f)

theorem failsOnly_storeGet (path : Text) (space : Option Text) :
    FailsOnly Failure.IsStoreFailure (storeGet path space) :=
  failsOnly_after_faults _ _ _ fun _ _ h => nomatch h

theorem failsOnly_storePut (path : Text) (data : Data) (metadata : List (Value × Value))
    (space : Option Text) : FailsOnly Failure.IsStoreFailure (storePut path data metadata space) :=
  failsOnly_after_faults _ _ _ fun _ _ h => nomatch h

theorem failsOnly_storeDelete (path : Text) (space : Option Text) :
    FailsOnly Failure.IsStoreFailure (storeDelete path space) :=
  failsOnly_after_faults _ _ _ fun _ _ h => nomatch h

theorem failsOnly_storeList (pathPrefix : Text) :
    FailsOnly Failure.IsStoreFailure (storeList pathPrefix) :=
  failsOnly_after_faults _ _ _ fun _ _ h => nomatch h

theorem failsOnly_storeGetPublic (space path : Text) :
    FailsOnly Failure.IsStoreFailure (storeGetPublic space path) :=
  failsOnly_after_faults _ _ _ fun _ _ h => nomatch h

end Vault

end Strongbox
