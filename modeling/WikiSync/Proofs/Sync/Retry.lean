import Mathlib.Logic.Function.Iterate
import WikiSync.Sync.Adaptor

/-!
# Retrying a write

A write of one file is tried until it succeeds, fails with an error that is not a lock, or has
used up the policy's attempts. Told through the outcomes `o₁, o₂, …` that the store gives for
successive writes of the file, the loop writes exactly `n` times, where `n` is the first attempt
that succeeds, fails for good, or is the last one allowed; it answers the number of attempts on
success, `retriesExhausted` when the last allowed attempt still hit a lock, and `write` when an
attempt failed for good (`Adaptor.writeWithRetry_attempts`). A configured limit of zero attempts
is taken as one, so every policy read from a configuration makes at least one attempt.
-/

namespace WikiSync

namespace FileStore

/-- The store after writing one file `k` times over. -/
def rewrite (s : FileStore) (path contents : String) (k : Nat) : FileStore :=
  (fun s => (s.write path contents).1)^[k] s

/-- The outcome of the `i`-th write of one file, counting from one. -/
def outcome (s : FileStore) (path contents : String) (i : Nat) : Except IoError Unit :=
  ((s.rewrite path contents (i - 1)).write path contents).2

variable (s : FileStore) (path contents : String)

@[simp] theorem rewrite_zero : s.rewrite path contents 0 = s :=
  rfl

theorem rewrite_succ (k : Nat) :
    s.rewrite path contents (k + 1) = (s.write path contents).1.rewrite path contents k :=
  Function.iterate_succ_apply _ k s

theorem outcome_one : s.outcome path contents 1 = (s.write path contents).2 :=
  rfl

/-- After the first write, the later outcomes are those of the store it left. -/
theorem outcome_succ {i : Nat} (hi : 1 ≤ i) :
    s.outcome path contents (i + 1) = (s.write path contents).1.outcome path contents i := by
  obtain ⟨k, rfl⟩ : ∃ k, i = k + 1 := ⟨i - 1, by omega⟩
  simp only [outcome, Nat.add_sub_cancel, rewrite_succ]

end FileStore

/-- How a retried write answers after `n` attempts of at most `m`, the last one giving `o`: the
attempts made when it succeeded, `retriesExhausted` when it hit a lock and was the last allowed,
and `write` when it failed for good. -/
def RetryVerdict (title path : String) (m n : Nat) :
    Except IoError Unit → Except SyncError Nat → Prop
  | .ok (), r => r = .ok n
  | .error e, r =>
    if e.kind.isTransient then n = m ∧ r = .error (.retriesExhausted title path n e)
    else r = .error (.write title path n e)

namespace Adaptor

open FileStore

/-- What a retry loop did from a store `s`, having made `attempt` attempts before: it wrote the
file `n` times, for some `n` from one to `bound`, the first `n - 1` writes hitting a lock, and
answered by the `n`-th. -/
def WritesUpTo (title path contents : String) (m attempt : Nat) (s : FileStore) (bound : Nat)
    (res : FileStore × Except SyncError Nat) : Prop :=
  ∃ n, 1 ≤ n ∧ n ≤ bound ∧
    (∀ i, 1 ≤ i → i < n → ∃ e, s.outcome path contents i = .error e ∧ e.kind.isTransient) ∧
    res.1 = s.rewrite path contents n ∧
    RetryVerdict title path m (attempt + n) (s.outcome path contents n) res.2

/-- A loop that stops at its first write has written once. -/
theorem writesUpTo_one {title path contents : String} {m attempt bound : Nat} {s s₁ : FileStore}
    {o : Except IoError Unit} {r : Except SyncError Nat} (hbound : 1 ≤ bound)
    (hw : s.write path contents = (s₁, o)) (hv : RetryVerdict title path m (attempt + 1) o r) :
    WritesUpTo title path contents m attempt s bound (s₁, r) := by
  refine ⟨1, Nat.le_refl 1, hbound, fun i hi hin => absurd hin (by omega), ?_, ?_⟩
  · rw [rewrite_succ, hw]
    rfl
  · rw [outcome_one, hw]
    exact hv

/-- The retry loop from attempt `attempt` with `retries` writes left after the next one, of a
policy allowing `m` in all: it writes at least once and at most `retries + 1` times. -/
theorem writeWithRetry_go_spec (title path contents : String) (m : Nat) (s : FileStore)
    (attempt retries : Nat) (hsum : attempt + retries + 1 = m) :
    WritesUpTo title path contents m attempt s (retries + 1)
      (writeWithRetry.go title path contents s attempt retries) := by
  fun_induction writeWithRetry.go title path contents s attempt retries with
  | case1 s attempt retries s₁ hw =>
    exact writesUpTo_one (by omega) hw rfl
  | case2 s attempt s₁ e ht retries hw ih =>
    obtain ⟨n, hn1, hnb, hlocks, hst, hv⟩ := ih (by omega)
    have hshift : ∀ i, 1 ≤ i → s.outcome path contents (i + 1) = s₁.outcome path contents i :=
      fun i hi => by rw [outcome_succ s path contents hi, hw]
    refine ⟨n + 1, by omega, by omega, fun i hi hin => ?_, ?_, ?_⟩
    · rcases Nat.lt_or_ge i 2 with hi1 | hi1
      · obtain rfl : i = 1 := by omega
        exact ⟨e, by rw [outcome_one, hw], ht⟩
      · obtain ⟨j, rfl⟩ : ∃ j, i = j + 1 := ⟨i - 1, by omega⟩
        rw [hshift j (by omega)]
        exact hlocks j (by omega) (by omega)
    · rw [hst, rewrite_succ, hw]
    · rw [hshift n hn1, show attempt + (n + 1) = attempt + 1 + n by omega]
      exact hv
  | case3 s attempt s₁ e ht hw =>
    exact writesUpTo_one (Nat.le_refl 1) hw (by simp [RetryVerdict, ht]; omega)
  | case4 s attempt retries s₁ e ht hw =>
    exact writesUpTo_one (by omega) hw (by simp [RetryVerdict, ht])
/-- Retrying a write, told through the outcomes the store gives for successive writes of the
file. Policies read from a configuration allow at least one attempt, and as many as configured
when that is not zero. A policy allowing `m ≥ 1` attempts writes the file exactly `n` times and
changes nothing else, where the first `n - 1` writes hit a lock and the `n`-th succeeds, fails for
good, or is the `m`-th; the answer is the number of attempts on success, `retriesExhausted` with
`n = m` when the `n`-th write hit a lock, and `write` otherwise, both reporting `n` attempts. -/
theorem writeWithRetry_attempts :
    (∀ c : RetryConfig, 1 ≤ (RetryPolicy.ofConfig c).maxAttempts ∧
      (c.maxAttempts ≠ 0 → (RetryPolicy.ofConfig c).maxAttempts = c.maxAttempts)) ∧
    ∀ (a : Adaptor) (title path contents : String), 1 ≤ a.retry.maxAttempts →
      ∃ n, 1 ≤ n ∧ n ≤ a.retry.maxAttempts ∧
        (∀ i, 1 ≤ i → i < n →
          ∃ e, a.store.outcome path contents i = .error e ∧ e.kind.isTransient) ∧
        (a.writeWithRetry title path contents).1 =
          { a with store := a.store.rewrite path contents n } ∧
        RetryVerdict title path a.retry.maxAttempts n (a.store.outcome path contents n)
          (a.writeWithRetry title path contents).2 := by
  refine ⟨fun c => ⟨Nat.le_max_right _ _, fun h => Nat.max_eq_left (by omega)⟩, ?_⟩
  intro a title path contents hm
  obtain ⟨n, hn1, hnm, hlocks, hst, hv⟩ := writeWithRetry_go_spec title path contents
    a.retry.maxAttempts a.store 0 (a.retry.maxAttempts - 1) (by omega)
  refine ⟨n, hn1, by omega, hlocks, ?_, ?_⟩
  · unfold writeWithRetry
    rw [← hst]
  · unfold writeWithRetry
    rw [Nat.zero_add] at hv
    exact hv

/-- A store whose next three writes hit a lock, under a policy of three attempts. -/
theorem writeWithRetry_attempts_locked :
    let a : Adaptor :=
      { index := ({} : IndexSet), router := { defaultRoot := "/w" },
        store := { disk := ⟨[(["w"], .dir)], 0⟩,
                   plannedWrites := [some .resourceBusy, some .resourceBusy, some .resourceBusy] },
        exclusions := .new 250, retry := ⟨1, 2.0, 4, 3⟩ }
    1 ≤ a.retry.maxAttempts ∧
      ∃ n, 1 ≤ n ∧ n ≤ a.retry.maxAttempts ∧
        (∀ i, 1 ≤ i → i < n →
          ∃ e, a.store.outcome "/w/T.tid" "x" i = .error e ∧ e.kind.isTransient) ∧
        (a.writeWithRetry "T" "/w/T.tid" "x").1 =
          { a with store := a.store.rewrite "/w/T.tid" "x" n } ∧
        RetryVerdict "T" "/w/T.tid" a.retry.maxAttempts n (a.store.outcome "/w/T.tid" "x" n)
          (a.writeWithRetry "T" "/w/T.tid" "x").2 := by
  intro a
  have hm : 1 ≤ a.retry.maxAttempts := by decide
  exact ⟨hm, writeWithRetry_attempts.2 a "T" "/w/T.tid" "x" hm⟩

end Adaptor

end WikiSync
