import Strongbox.Proofs.Runs

/-!
# Operations that run at once

Two operations of one vault may run at the same time: each waits on the store, and while one
waits the other goes on. A `Proc` is an operation cut at those points. Each step runs at once
and what follows depends on its result; run alone, a proc is the operation it cuts
(`exec_run_of_runSteps`). Two procs run together under a schedule that says which of them takes
each next step (`interleave`).

A proc whose steps leave unchanged every world it can meet is a reader. Run beside a reader,
the other proc goes exactly as it goes alone, and each step of the reader meets one of the
worlds the other passes through, in order (`interleave_eq_observe`). What the reader returns is
then a function of those worlds (`observe`).
-/

namespace Strongbox

namespace Vault

/-- An operation cut into steps that each run at once. -/
inductive Proc (α : Type) : Type 1 where
  /-- Finished, with this outcome. -/
  | done (r : Except Failure α)
  /-- Run `m` at once, then go on with its result. -/
  | step {β : Type} (m : VaultM β) (rest : β → Proc α)

namespace Proc

variable {α β : Type}

/-- The operation a proc cuts, with no step of another in between. -/
def run : Proc α → VaultM α
  | done r => liftExcept r
  | step m rest => m >>= fun b => (rest b).run

/-- One step from a world: what remains, and the world the step leaves. A finished proc stays. -/
def advance : Proc α → World → Proc α × World
  | done r, w => (done r, w)
  | step m rest, w =>
    match exec m w with
    | (.ok b, w') => (rest b, w')
    | (.error e, w') => (done (.error e), w')

/-- What remains after `n` steps alone from `w`, and the world they leave. -/
def runSteps : Proc α → World → Nat → Proc α × World
  | p, w, 0 => (p, w)
  | p, w, n + 1 => (p.advance w).1.runSteps (p.advance w).2 n

/-- What remains after one step in each of the worlds in turn, the worlds the steps leave
dropped: a reader handed the worlds another operation passes through. -/
def observe : Proc α → List World → Proc α
  | p, [] => p
  | p, w :: ws => (p.advance w).1.observe ws

/-- Every step of the proc, from a world that `P` holds of, leaves that world as it was. -/
inductive Keeps (P : World → Prop) : Proc α → Prop where
  | done (r : Except Failure α) : Keeps P (done r)
  | step {β : Type} {m : VaultM β} {rest : β → Proc α} (hm : ∀ w, P w → (exec m w).2 = w)
      (hrest : ∀ b, Keeps P (rest b)) : Keeps P (step m rest)

@[simp] theorem advance_done (r : Except Failure α) (w : World) :
    (done r).advance w = (done r, w) := rfl

@[simp] theorem runSteps_zero (p : Proc α) (w : World) : p.runSteps w 0 = (p, w) := rfl

theorem runSteps_succ (p : Proc α) (w : World) (n : Nat) :
    p.runSteps w (n + 1) = (p.advance w).1.runSteps (p.advance w).2 n := rfl

@[simp] theorem runSteps_done (r : Except Failure α) (w : World) (n : Nat) :
    (done r).runSteps w n = (done r, w) := by
  induction n with
  | zero => rfl
  | succ n ih => exact ih

@[simp] theorem observe_nil (p : Proc α) : p.observe [] = p := rfl

theorem observe_cons (p : Proc α) (w : World) (ws : List World) :
    p.observe (w :: ws) = (p.advance w).1.observe ws := rfl

@[simp] theorem observe_done (r : Except Failure α) (ws : List World) :
    (done r).observe ws = done r := by
  induction ws with
  | nil => rfl
  | cons w ws ih => exact ih

theorem observe_append (p : Proc α) (ws ws' : List World) :
    p.observe (ws ++ ws') = (p.observe ws).observe ws' := by
  induction ws generalizing p with
  | nil => rfl
  | cons w ws ih => exact ih _

theorem advance_step_ok {γ : Type} {m : VaultM γ} {rest : γ → Proc α} {w w' : World} {b : γ}
    (h : exec m w = (.ok b, w')) : (step m rest).advance w = (rest b, w') := by
  simp only [advance, h]

theorem advance_step_error {γ : Type} {m : VaultM γ} {rest : γ → Proc α} {w w' : World}
    {e : Failure} (h : exec m w = (.error e, w')) :
    (step m rest).advance w = (done (.error e), w') := by
  simp only [advance, h]

/-- A proc run alone until it finishes is the operation it cuts. -/
theorem exec_run_of_runSteps {p : Proc α} {w : World} {n : Nat} {r : Except Failure α}
    (h : (p.runSteps w n).1 = done r) : exec p.run w = (r, (p.runSteps w n).2) := by
  induction n generalizing p w with
  | zero =>
    rw [runSteps_zero] at h ⊢
    subst h
    exact exec_liftExcept r w
  | succ n ih =>
    cases p with
    | done r' =>
      rw [runSteps_done] at h ⊢
      cases h
      exact exec_liftExcept _ w
    | step m rest =>
      rw [runSteps_succ] at h ⊢
      show exec (m >>= fun b => (rest b).run) w = _
      rw [exec_bind]
      rcases hm : exec m w with ⟨_ | b, w'⟩
      · rw [advance_step_error hm, runSteps_done] at h ⊢
        cases h
        rfl
      · rw [advance_step_ok hm] at h ⊢
        exact ih h

/-- `p`, then `f` on its result; a failure ends the run. -/
def bind : Proc α → (α → Proc β) → Proc β
  | done (.ok a), f => f a
  | done (.error e), _ => done (.error e)
  | step m rest, f => step m fun b => (rest b).bind f

theorem run_bind (p : Proc α) (f : α → Proc β) :
    (p.bind f).run = p.run >>= fun a => (f a).run := by
  induction p with
  | done r => cases r <;> rfl
  | step m rest ih => simp only [bind, run, bind_assoc, ih]

theorem runSteps_add (p : Proc α) (w : World) (m n : Nat) :
    p.runSteps w (m + n) = (p.runSteps w m).1.runSteps (p.runSteps w m).2 n := by
  induction m generalizing p w with
  | zero => rw [Nat.zero_add, runSteps_zero]
  | succ m ih => rw [Nat.add_right_comm, runSteps_succ, ih, runSteps_succ]

/-- Until `p` has finished with a result, `p.bind f` goes as `p` does. -/
theorem runSteps_bind (p : Proc α) (f : α → Proc β) (w : World) (n : Nat)
    (h : ∀ j < n, ∀ a, (p.runSteps w j).1 ≠ done (.ok a)) :
    (p.bind f).runSteps w n = ((p.runSteps w n).1.bind f, (p.runSteps w n).2) := by
  induction n generalizing p w with
  | zero => rfl
  | succ n ih =>
    cases p with
    | done r =>
      cases r with
      | ok a => exact absurd rfl (h 0 (Nat.succ_pos n) a)
      | error e => simp only [bind, runSteps_done]
    | step m rest =>
      rcases hm : exec m w with ⟨_ | b, w'⟩
      · rw [runSteps_succ, runSteps_succ, bind, advance_step_error hm, advance_step_error hm,
          runSteps_done, runSteps_done]
        rfl
      · rw [runSteps_succ, runSteps_succ, bind, advance_step_ok hm, advance_step_ok hm]
        refine ih (rest b) w' fun j hj a => ?_
        have := h (j + 1) (Nat.succ_lt_succ hj) a
        rwa [runSteps_succ, advance_step_ok hm] at this

/-! ## Procs that finish -/

/-- `p` finishes within `n` steps, whatever each step returns. -/
inductive Within : Nat → Proc α → Prop where
  | done (n : Nat) (r : Except Failure α) : Within n (done r)
  | step {n : Nat} {γ : Type} (m : VaultM γ) {rest : γ → Proc α} (hrest : ∀ b, Within n (rest b)) :
      Within (n + 1) (step m rest)

theorem Within.mono {p : Proc α} {n n' : Nat} (hp : p.Within n) (hn : n ≤ n') : p.Within n' := by
  induction hp generalizing n' with
  | done n r => exact .done n' r
  | step m _ ih =>
    obtain ⟨n', rfl⟩ : ∃ k, n' = k + 1 := ⟨n' - 1, by omega⟩
    exact .step m fun b => ih b (by omega)

theorem Within.done_of_zero {p : Proc α} (hp : p.Within 0) : ∃ r, p = Proc.done r := by
  cases hp with
  | done _ r => exact ⟨r, rfl⟩

theorem Within.advance {p : Proc α} {n : Nat} (hp : p.Within n) (w : World) :
    (p.advance w).1.Within (n - 1) := by
  cases hp with
  | done _ r => exact .done _ r
  | step m hrest =>
    rename_i rest
    rcases hm : exec m w with ⟨_ | b, w'⟩
    · rw [advance_step_error hm]
      exact .done _ _
    · rw [advance_step_ok hm]
      exact hrest b

/-- Run alone for at least `n` steps, a proc that finishes within `n` has finished. -/
theorem Within.runSteps {p : Proc α} {n : Nat} (hp : p.Within n) (w : World) {m : Nat}
    (hm : n ≤ m) : ∃ r, (p.runSteps w m).1 = Proc.done r := by
  induction m generalizing p n w with
  | zero =>
    obtain ⟨r, rfl⟩ := (hp.mono hm).done_of_zero
    exact ⟨r, rfl⟩
  | succ m ih =>
    rw [runSteps_succ]
    exact ih (hp.advance w) _ (by omega)

theorem Within.bind {p : Proc α} {f : α → Proc β} {m n : Nat} (hp : p.Within m)
    (hf : ∀ a, (f a).Within n) : (p.bind f).Within (m + n) := by
  induction hp with
  | done m r =>
    cases r with
    | ok a => exact (hf a).mono (Nat.le_add_left n m)
    | error e => exact .done _ _
  | step m' _ ih =>
    rw [Nat.add_right_comm]
    exact .step m' ih

/-! ## Readers -/

section Readers

variable {P : World → Prop}

theorem Keeps.advance {p : Proc α} (hp : p.Keeps P) {w : World} (hw : P w) :
    (p.advance w).2 = w ∧ (p.advance w).1.Keeps P := by
  cases hp with
  | done r => exact ⟨rfl, .done r⟩
  | step hm hrest =>
    rename_i m rest
    rcases h : exec m w with ⟨_ | b, w'⟩
    · have hw' : w' = w := by
        have := hm w hw
        rwa [h] at this
      rw [advance_step_error h]
      exact ⟨hw', .done _⟩
    · have hw' : w' = w := by
        have := hm w hw
        rwa [h] at this
      rw [advance_step_ok h]
      exact ⟨hw', hrest b⟩

theorem Keeps.runSteps {p : Proc α} (hp : p.Keeps P) {w : World} (hw : P w) (n : Nat) :
    p.runSteps w n = (p.observe (List.replicate n w), w) := by
  induction n generalizing p with
  | zero => rfl
  | succ n ih =>
    obtain ⟨hw', hp'⟩ := hp.advance hw
    rw [runSteps_succ, List.replicate_succ, observe_cons, ← ih hp', hw']

/-- What a reader returns run alone is what it returns handed its own world, again and again. -/
theorem Keeps.exec_run {p : Proc α} (hp : p.Keeps P) {w : World} (hw : P w) {n : Nat}
    {r : Except Failure α} (h : p.observe (List.replicate n w) = Proc.done r) :
    exec p.run w = (r, w) := by
  have hsteps := hp.runSteps hw n
  rw [exec_run_of_runSteps (n := n) (by rw [hsteps]; exact h), hsteps]

end Readers

end Proc

/-! ## Schedules -/

variable {α β : Type}

/-- Two procs run together: `true` in the schedule gives the next step to the first, `false`
to the second. -/
def interleave : List Bool → Proc α → Proc β → World → Proc α × Proc β × World
  | [], p, q, w => (p, q, w)
  | true :: s, p, q, w => interleave s (p.advance w).1 q (p.advance w).2
  | false :: s, p, q, w => interleave s p (q.advance w).1 (q.advance w).2

/-- For each step the schedule gives the first proc, how many steps the second has taken. -/
def firstTurns : List Bool → List Nat
  | [] => []
  | true :: s => 0 :: firstTurns s
  | false :: s => (firstTurns s).map (· + 1)

theorem pairwise_firstTurns (s : List Bool) : (firstTurns s).Pairwise (· ≤ ·) := by
  induction s with
  | nil => exact .nil
  | cons b s ih =>
    cases b with
    | true =>
      exact List.Pairwise.cons (fun _ _ => Nat.zero_le _) ih
    | false =>
      rw [firstTurns, List.pairwise_map]
      exact ih.imp fun h => Nat.succ_le_succ h

theorem le_of_mem_firstTurns {s : List Bool} {n : Nat} (h : n ∈ firstTurns s) :
    n ≤ s.count false := by
  induction s generalizing n with
  | nil => cases h
  | cons b s ih =>
    cases b with
    | true =>
      rw [firstTurns, List.mem_cons] at h
      rw [List.count_cons]
      rcases h with rfl | h
      · exact Nat.zero_le _
      · exact Nat.le_trans (ih h) (Nat.le_add_right _ _)
    | false =>
      rw [firstTurns, List.mem_map] at h
      obtain ⟨m, hm, rfl⟩ := h
      rw [List.count_cons]
      simpa using ih hm

/-- Beside a reader, the other proc runs as it runs alone, and the reader's steps meet the
worlds the other has left at its turns. The induction is on the schedule; the world the
reader's step leaves is the one it met. -/
theorem interleave_eq_observe {P : World → Prop} {p : Proc α} (hp : p.Keeps P) (q : Proc β)
    (w : World) (hq : ∀ n, P (q.runSteps w n).2) (s : List Bool) :
    interleave s p q w =
      (p.observe ((firstTurns s).map fun n => (q.runSteps w n).2),
        (q.runSteps w (s.count false)).1, (q.runSteps w (s.count false)).2) := by
  induction s generalizing p q w with
  | nil => rfl
  | cons b s ih =>
    cases b with
    | true =>
      obtain ⟨hw, hp'⟩ := hp.advance (show P w from hq 0)
      rw [interleave, hw, ih hp' q w hq, firstTurns, List.map_cons, Proc.observe_cons,
        Proc.runSteps_zero, List.count_cons]
      rfl
    | false =>
      have hq' : ∀ n, P (((q.advance w).1.runSteps (q.advance w).2 n)).2 := fun n => hq (n + 1)
      rw [interleave, ih hp _ _ hq', firstTurns, List.map_map, List.count_cons]
      rfl

/-- A schedule that gives each proc at least as many turns as it needs runs both to the end. -/
theorem interleave_finishes {p : Proc α} {q : Proc β} {m n : Nat} (hp : p.Within m)
    (hq : q.Within n) (s : List Bool) (hs : m ≤ s.count true ∧ n ≤ s.count false) (w : World) :
    ∃ r r' w', interleave s p q w = (.done r, .done r', w') := by
  induction s generalizing p q m n w with
  | nil =>
    obtain ⟨r, rfl⟩ := (hp.mono hs.1).done_of_zero
    obtain ⟨r', rfl⟩ := (hq.mono hs.2).done_of_zero
    exact ⟨r, r', w, rfl⟩
  | cons b s ih =>
    cases b with
    | true =>
      rw [interleave]
      refine ih (hp.advance w) hq ⟨?_, ?_⟩ _
      · have := hs.1
        rw [List.count_cons_self] at this
        omega
      · have := hs.2
        rw [List.count_cons_of_ne (by decide : true ≠ false)] at this
        exact this
    | false =>
      rw [interleave]
      refine ih hp (hq.advance w) ⟨?_, ?_⟩ _
      · have := hs.1
        rw [List.count_cons_of_ne (by decide : false ≠ true)] at this
        exact this
      · have := hs.2
        rw [List.count_cons_self] at this
        omega

end Vault

end Strongbox
