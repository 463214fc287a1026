import NodeProvisioner.Proofs.Pauses

/-!
# One attempt after the other

What may succeed later is tried again, until it succeeds, fails for good, or has been tried as often
as it may be. The attempts are counted in thirty-two bits. Here the counter is made explicit: the
loop `Backoff.counted` has it, tells each attempt its number, and aborts if there is no next number;
`Backoff.retry` is this loop for attempts that do not ask for their numbers.

An attempt is known by its result alone, so that a world is a sequence of results, and one of factors
by which the pauses are spread. Each pause draws one factor and is slept once, so that before every
attempt there have been as many attempts as draws, and the counter says how many.

Pauses are spans that have to be stated. Those that a configuration asks for can be; others may be too
long, and then the program aborts.

Main statement: `Backoff.retry_ends`.
-/

namespace NodeProvisioner

/-! ## Acts -/

/-- What is done while something is tried again. Attempts have labels. -/
inductive Act (ι : Type) where
  | attempt (label : ι)
  | draw
  | sleep (span : Duration)

namespace Act

variable {ι ε α : Type}

/-- What an act is answered with. -/
def Answer (ε α : Type) : Act ι → Type
  | attempt _ => Except ε α
  | draw => Float
  | sleep _ => Unit

/-- An attempt of this label. -/
def trial (label : ι) : Program (Answer ε α : Act ι → Type) (Except ε α) :=
  .perform (attempt label)

/-- A pause: it is spread by a factor that is drawn, and slept. -/
def nap (delay : Duration) : Program (Answer ε α : Act ι → Type) Unit :=
  .call draw fun factor : Float =>
    match Backoff.spread? factor delay with
    | none => .abort
    | some span => .perform (sleep span)

/-- A world in which attempts have these results and these factors are drawn, each in its order. It
counts attempts and draws. -/
def world (results : Nat → Except ε α) (factors : Nat → Float) :
    Program.World (Answer ε α : Act ι → Type) (Nat × Nat)
  | attempt _, (i, j) => (results i, i + 1, j)
  | draw, (i, j) => (factors j, i, j + 1)
  | sleep _, s => ((), s)

/-- Attempts with a pause between any two of them. So many have been made before. -/
def paced (label : UInt32 → ι) : Nat → List Duration → List (Act ι)
  | made, [] => [attempt (label (.ofNat (made + 1)))]
  | made, span :: rest =>
    attempt (label (.ofNat (made + 1))) :: draw :: sleep span :: paced label (made + 1) rest

end Act

namespace Backoff

variable {C : Type} {A : C → Type} {ι ε α : Type}

/-! ## The counter -/

theorem countable_eq : countable = 2 ^ 32 - 1 := rfl

/-- There is a next number after all but the last. -/
theorem toNat_next {made : UInt32} (h : made.toNat ≠ countable) :
    (made + 1).toNat = made.toNat + 1 := by
  have within := made.toNat_lt
  rw [countable_eq] at h
  rw [UInt32.toNat_add]
  exact Nat.mod_eq_of_lt (show made.toNat + 1 < 2 ^ 32 by omega)

/-- As many attempts have been made as there may be. -/
def isExhausted (b : Backoff) (made : UInt32) : Bool :=
  b.maxAttempts ≠ 0 && b.maxAttempts ≤ made.toNat

/-- Goes on with the next pause, if there is one. -/
def withNext (b : Backoff) (delay : Duration) (rest : Duration → Program A α) : Program A α :=
  match b.nextDelay? delay with
  | none => .abort
  | some next => rest next

/-- Makes attempts and counts them. Out of numbers, the program aborts. -/
def counted (b : Backoff) (pause : Duration → Program A Unit) (mayPass : ε → Bool)
    (attempt : UInt32 → Program A (Except ε α)) (made : UInt32) (delay : Duration) :
    Program A (Except ε α) :=
  if _ : made.toNat = countable then .abort
  else (attempt (made + 1)).bind fun result =>
    match result with
    | .ok a => .done (.ok a)
    | .error e =>
      if !mayPass e then .done (.error e)
      else if b.isExhausted (made + 1) then .done (.error e)
      else (pause delay).bind fun _ => b.withNext delay fun next =>
        b.counted pause mayPass attempt (made + 1) next
termination_by countable - made.toNat
decreasing_by
  rename_i last _
  have within := made.toNat_lt
  rw [countable_eq] at last
  rw [toNat_next last]
  exact Nat.sub_succ_lt_self _ _ (by rw [countable_eq]; omega)

section

variable {b : Backoff} {pause : Duration → Program A Unit} {mayPass : ε → Bool}
  {attempt : Program A (Except ε α)}

/-- What is left of the attempts is what has not been counted. -/
theorem attempts_eq_counted : ∀ {left : Nat} {made : UInt32} (delay : Duration),
    (b.maxAttempts = 0 ∧ made.toNat + left = countable ∨
      left ≠ 0 ∧ made.toNat + left = b.maxAttempts ∧ b.maxAttempts ≤ countable) →
    b.attempts pause mayPass attempt left delay
      = b.counted pause mayPass (fun _ => attempt) made delay
  | 0, made, delay, h => by
    have last : made.toNat = countable := by
      rcases h with ⟨_, all⟩ | ⟨none, _⟩
      · exact all
      · exact absurd rfl none
    rw [counted, dif_pos last]
    rfl
  | left + 1, made, delay, h => by
    have more : made.toNat ≠ countable := by omega
    have next := toNat_next more
    have exhausted : (b.maxAttempts ≠ 0 && left = 0) = b.isExhausted (made + 1) := by
      unfold isExhausted
      rw [next, Bool.eq_iff_iff]
      simp only [Bool.and_eq_true, decide_eq_true_eq]
      omega
    rw [counted, dif_neg more, attempts]
    refine congrArg (Program.bind attempt) (funext fun result => ?_)
    cases result with
    | ok a => rfl
    | error e =>
      simp only [exhausted]
      cases passes : mayPass e with
      | false => rfl
      | true =>
        cases spent : b.isExhausted (made + 1) with
        | true => rfl
        | false =>
          have later (d : Duration) : b.attempts pause mayPass attempt left d
              = b.counted pause mayPass (fun _ => attempt) (made + 1) d := by
            refine attempts_eq_counted d ?_
            unfold isExhausted at spent
            simp only [Bool.and_eq_false_iff, decide_eq_false_iff_not] at spent
            omega
          simp only [later]
          rfl

/-- **The attempts are those of the loop with a counter.** -/
theorem retry_eq_counted (limit : b.maxAttempts ≤ countable) :
    b.retry pause mayPass attempt
      = b.counted pause mayPass (fun _ => attempt) 0 b.initialDelay := by
  have none : (0 : UInt32).toNat = 0 := rfl
  unfold retry
  split
  · rename_i unlimited
    refine attempts_eq_counted _ (.inl ⟨unlimited, ?_⟩)
    rw [none, Nat.zero_add]
  · rename_i limited
    refine attempts_eq_counted _ (.inr ⟨limited, ?_, limit⟩)
    rw [none, Nat.zero_add]

end

/-! ## Runs -/

/-- Nothing is tried after this result. -/
def isFinal (mayPass : ε → Bool) : Except ε α → Bool
  | .ok _ => true
  | .error e => !mayPass e

/-- The attempts of the loop that have not been made. -/
def trials (b : Backoff) (mayPass : ε → Bool) (label : UInt32 → ι) (made : UInt32)
    (delay : Duration) : Program (Act.Answer ε α : Act ι → Type) (Except ε α) :=
  b.counted Act.nap mayPass (fun number => Act.trial (label number)) made delay

section

open Act (paced)

variable {b : Backoff} {mayPass : ε → Bool} {label : UInt32 → ι} {made : UInt32}
  {delay : Duration} {results : Nat → Except ε α} {factors : Nat → Float} {i j : Nat}

/-- A pause, and what follows it. -/
theorem run_nap (rest : Unit → Program (Act.Answer ε α : Act ι → Type) (Except ε α)) :
    ((Act.nap delay).bind rest).run (Act.world results factors) (i, j) =
      match spread? (factors j) delay with
      | none => (none, [.draw], i, j + 1)
      | some span =>
        let (result, acts, s) := (rest ()).run (Act.world results factors) (i, j + 1)
        (result, .draw :: .sleep span :: acts, s) := by
  simp only [Act.nap, Program.bind, Program.run, Act.world]
  cases spread? (factors j) delay <;> rfl

/-- What becomes of the attempts is up to the next one. -/
theorem run_trials (more : made.toNat ≠ countable) :
    (b.trials mayPass label made delay).run (Act.world results factors) (i, j) =
      if isFinal mayPass (results i) || b.isExhausted (made + 1) then
        (some (results i), [.attempt (label (made + 1))], i + 1, j)
      else
        match spread? (factors j) delay with
        | none => (none, [.attempt (label (made + 1)), .draw], i + 1, j + 1)
        | some span =>
          match b.nextDelay? delay with
          | none => (none, [.attempt (label (made + 1)), .draw, .sleep span], i + 1, j + 1)
          | some next =>
            let (result, acts, s) := (b.trials mayPass label (made + 1) next).run
              (Act.world results factors) (i + 1, j + 1)
            (result, .attempt (label (made + 1)) :: .draw :: .sleep span :: acts, s) := by
  unfold trials
  rw [counted, dif_neg more]
  simp only [Act.trial, Program.perform, Program.bind, Program.run, Act.world]
  cases results i with
  | ok a => rfl
  | error e =>
    cases passes : mayPass e with
    | false => simp [isFinal, passes]
    | true =>
      cases spent : b.isExhausted (made + 1) with
      | true => simp [isFinal, passes]
      | false =>
        simp only [isFinal, passes, Bool.not_true, Bool.or_false, Bool.false_eq_true, if_false,
          run_nap]
        cases spread? (factors j) delay with
        | none => rfl
        | some span =>
          simp only [withNext]
          cases b.nextDelay? delay <;> rfl

theorem ofNat_next (made : UInt32) : UInt32.ofNat (made.toNat + 1) = made + 1 := by
  rw [UInt32.ofNat_add, UInt32.ofNat_toNat]
  rfl

theorem isExhausted_next (more : made.toNat ≠ countable) : b.isExhausted (made + 1) = true ↔
    b.maxAttempts ≠ 0 ∧ b.maxAttempts ≤ made.toNat + 1 := by
  rw [isExhausted, toNat_next more]
  simp

/-- An attempt that is not the last one is followed by the others if the pause after it is below the
limit, and by none if it is not. -/
theorem run_trials_goes (nonneg : ¬ b.multiplier < 0)
    (spreads : 0.5 ≤ factors j ∧ factors j < 1.5) (reached : b.pause? made.toNat = some delay)
    (more : made.toNat ≠ countable) (going : isFinal mayPass (results i) = false)
    (unspent : b.isExhausted (made + 1) = false) :
    (b.IsBounded (factors j) made.toNat → ∃ span next, b.pause? (made + 1).toNat = some next ∧
      ∀ {ι : Type} (label : UInt32 → ι),
        (b.trials mayPass label made delay).run (Act.world results factors) (i, j) =
          let (result, acts, s) := (b.trials mayPass label (made + 1) next).run
            (Act.world results factors) (i + 1, j + 1)
          (result, .attempt (label (made + 1)) :: .draw :: .sleep span :: acts, s)) ∧
    (¬ b.IsBounded (factors j) made.toNat → ∀ {ι : Type} (label : UInt32 → ι),
      ((b.trials mayPass label made delay).run (Act.world results factors) (i, j)).1 = none) := by
  have going₀ : ¬ (isFinal mayPass (results i) || b.isExhausted (made + 1)) = true := by
    rw [going, unspent]
    exact nofun
  have spread_iff := isSome_spread?_iff spreads.1 spreads.2 delay
  have grows_iff := isSome_nextDelay?_iff nonneg delay
  constructor
  · intro bounded
    obtain ⟨short, short'⟩ := bounded delay reached
    obtain ⟨span, spread⟩ := Option.isSome_iff_exists.mp (spread_iff.mpr short)
    obtain ⟨next, grows⟩ := Option.isSome_iff_exists.mp (grows_iff.mpr short')
    refine ⟨span, next, ?_, fun label => ?_⟩
    · rw [toNat_next more, pause?, reached]
      exact grows
    · rw [run_trials more, if_neg going₀, spread, grows]
  · intro long ι label
    rw [run_trials more, if_neg going₀]
    cases spread : spread? (factors j) delay with
    | none => rfl
    | some span =>
      cases grows : b.nextDelay? delay with
      | none => rfl
      | some next =>
        refine absurd ?_ long
        intro d reached'
        cases reached.symm.trans reached'
        exact ⟨spread_iff.mp (by rw [spread]; rfl), grows_iff.mp (by rw [grows]; rfl)⟩

/-- **The attempts go on to the last one**, with a pause before each but the first, if the pauses
are below the limit. If one of them is not, the attempts are broken off there. It does not matter
how they are labelled. -/
theorem run_trials_ends (nonneg : ¬ b.multiplier < 0) (limit : b.maxAttempts ≤ countable)
    (spreads : ∀ j, 0.5 ≤ factors j ∧ factors j < 1.5) :
    ∀ (i : Nat) (made : UInt32) (delay : Duration), b.pause? made.toNat = some delay →
      (∀ k < i, isFinal mayPass (results (made.toNat + k)) = false) →
      (isFinal mayPass (results (made.toNat + i)) = true ∨ made.toNat + i + 1 = b.maxAttempts) →
      (made.toNat + i < b.maxAttempts ∨ b.maxAttempts = 0 ∧ made.toNat + i < countable) →
      ((∀ k < i, b.IsBounded (factors (made.toNat + k)) (made.toNat + k)) →
        ∃ sleeps : List Duration, sleeps.length = i ∧ ∀ {ι : Type} (label : UInt32 → ι),
          (b.trials mayPass label made delay).run (Act.world results factors)
              (made.toNat, made.toNat)
            = (some (results (made.toNat + i)), paced label made.toNat sleeps,
                made.toNat + i + 1, made.toNat + i)) ∧
      ((∃ k < i, ¬ b.IsBounded (factors (made.toNat + k)) (made.toNat + k)) →
        ∀ {ι : Type} (label : UInt32 → ι),
          ((b.trials mayPass label made delay).run (Act.world results factors)
            (made.toNat, made.toNat)).1 = none)
  | 0, made, delay, _, _, last, allowed => by
    have more : made.toNat ≠ countable := by omega
    have ends : (isFinal mayPass (results made.toNat) || b.isExhausted (made + 1)) = true := by
      rw [Bool.or_eq_true, isExhausted_next more]
      refine last.imp id fun spent => ?_
      omega
    refine ⟨fun _ => ⟨[], rfl, fun label => ?_⟩, fun ⟨_, lt, _⟩ => absurd lt (Nat.not_lt_zero _)⟩
    rw [run_trials more, if_pos ends, paced, ofNat_next]
    rfl
  | i + 1, made, delay, reached, going, last, allowed => by
    have more : made.toNat ≠ countable := by omega
    have next_eq := toNat_next more
    have unspent : b.isExhausted (made + 1) = false := by
      rw [Bool.eq_false_iff, Ne, isExhausted_next more]
      omega
    have first : isFinal mayPass (results made.toNat) = false := going 0 (Nat.succ_pos i)
    obtain ⟨goes, breaks⟩ :=
      run_trials_goes nonneg (spreads made.toNat) reached more first unspent
    have shift (k : Nat) : (made + 1).toNat + k = made.toNat + (k + 1) := by omega
    have rest (next : Duration) (reached' : b.pause? (made + 1).toNat = some next) :=
      run_trials_ends nonneg limit spreads i (made + 1) next reached'
        (fun k lt => by rw [shift]; exact going (k + 1) (Nat.succ_lt_succ lt))
        (by rwa [shift]) (by rwa [shift])
    simp only [shift] at rest
    rw [next_eq] at rest
    by_cases bounded : b.IsBounded (factors made.toNat) made.toNat
    · obtain ⟨span, next, reached', runs⟩ := goes bounded
      obtain ⟨ends, breaks'⟩ := rest next (next_eq ▸ reached')
      constructor
      · intro all
        obtain ⟨sleeps, length, run⟩ := ends fun k lt => all (k + 1) (Nat.succ_lt_succ lt)
        refine ⟨span :: sleeps, congrArg (· + 1) length, fun label => ?_⟩
        rw [runs]
        simp only [run, paced, ofNat_next]
      · rintro ⟨k, lt, long⟩ ι label
        rw [runs]
        cases k with
        | zero => exact absurd bounded long
        | succ k => exact breaks' ⟨k, Nat.lt_of_succ_lt_succ lt, long⟩ label
    · exact ⟨fun all => absurd (all 0 (Nat.succ_pos i)) bounded, fun _ => breaks bounded⟩

/-- An attempt is the next one, or one of those after it. -/
theorem attempt_mem_run (more : made.toNat ≠ countable) {number : UInt32}
    (mem : Act.attempt number ∈ ((b.trials mayPass id made delay).run
      (Act.world results factors) (i, j)).2.1) :
    number = made + 1 ∨ ¬ b.isExhausted (made + 1) = true ∧ ∃ next,
      Act.attempt number ∈ ((b.trials mayPass id (made + 1) next).run
        (Act.world results factors) (i + 1, j + 1)).2.1 := by
  rw [run_trials more] at mem
  split at mem
  · cases List.mem_singleton.mp mem
    exact .inl rfl
  · rename_i going
    have spent : ¬ b.isExhausted (made + 1) = true := by
      intro spent
      rw [spent, Bool.or_true] at going
      exact going rfl
    cases stretched : spread? (factors j) delay with
    | none =>
      simp only [stretched, id_eq, List.mem_cons, reduceCtorEq, List.not_mem_nil, or_false,
        Act.attempt.injEq] at mem
      exact .inl mem
    | some span =>
      cases grown : b.nextDelay? delay with
      | none =>
        simp only [stretched, grown, id_eq, List.mem_cons, reduceCtorEq, List.not_mem_nil,
          or_false, Act.attempt.injEq] at mem
        exact .inl mem
      | some next =>
        simp only [stretched, grown, id_eq, List.mem_cons, reduceCtorEq, false_or,
          Act.attempt.injEq] at mem
        exact mem.imp id fun later => ⟨spent, next, later⟩

/-- **No attempt has a number above their limit**, even if they are broken off. -/
theorem number_le (limit : b.maxAttempts ≤ countable) {number : UInt32} (left : Nat)
    (rest : made.toNat + (left + 1) = b.maxAttempts)
    (mem : Act.attempt number ∈ ((b.trials mayPass id made delay).run
      (Act.world results factors) (i, j)).2.1) : number.toNat ≤ b.maxAttempts := by
  induction left generalizing made delay i j with
  | zero =>
    have more : made.toNat ≠ countable := by omega
    rcases attempt_mem_run more mem with rfl | ⟨spent, _⟩
    · rw [toNat_next more]
      omega
    · rw [isExhausted_next more] at spent
      omega
  | succ left ih =>
    have more : made.toNat ≠ countable := by omega
    have next_eq := toNat_next more
    rcases attempt_mem_run more mem with rfl | ⟨_, next, later⟩
    · omega
    · exact ih (by omega) later

end

/-! ## The last attempt -/

/-- The number of attempts that are made before the last one, if there may be `n`, or as many as can
be counted if `n` is zero: the first attempt after which nothing is tried is the last, or else the
`n`-th. -/
structure IsLast (mayPass : ε → Bool) (results : Nat → Except ε α) (n i : Nat) : Prop where
  earlier : ∀ j < i, isFinal mayPass (results j) = false
  last : isFinal mayPass (results i) = true ∨ i + 1 = n
  allowed : i < n ∨ n = 0 ∧ i < countable

/-- There is a last attempt if their number is limited. -/
theorem exists_isLast (mayPass : ε → Bool) (results : Nat → Except ε α) {n : Nat} (limited : n ≠ 0) :
    ∃ i, IsLast mayPass results n i := by
  classical
  by_cases final : ∃ i, i < n ∧ isFinal mayPass (results i) = true
  · obtain ⟨lt, ends⟩ := Nat.find_spec final
    refine ⟨Nat.find final, fun j before => ?_, .inl ends, .inl lt⟩
    have not := Nat.find_min final before
    exact Bool.eq_false_iff.mpr fun ends => not ⟨Nat.lt_trans before lt, ends⟩
  · refine ⟨n - 1, fun j before => ?_, .inr (by omega), .inl (by omega)⟩
    exact Bool.eq_false_iff.mpr fun ends => final ⟨j, by omega, ends⟩

/-- **What is tried again is tried up to the last attempt**, and the result is that of the last
attempt; before each other attempt it is slept once. The attempts are numbered from one on, and no
number is above their limit.

This is so if the pauses between the attempts, as they are slept and as they grow, are below the
limit of spans. If one of them is not, it breaks the attempts off. Those of a valid configuration
are below it. -/
theorem retry_ends (b : Backoff) (nonneg : ¬ b.multiplier < 0) (limit : b.maxAttempts < 2 ^ 32)
    (mayPass : ε → Bool) (results : Nat → Except ε α) (factors : Nat → Float)
    (spreads : ∀ j, 0.5 ≤ factors j ∧ factors j < 1.5) :
    let n := b.maxAttempts
    let trial : Program (Act.Answer ε α : Act Unit → Type) (Except ε α) := Act.trial ()
    let retried := (b.retry Act.nap mayPass trial).run (Act.world results factors) (0, 0)
    let counted := (b.counted Act.nap mayPass Act.trial 0 b.initialDelay).run
      (Act.world results factors) (0, 0)
    b.retry Act.nap mayPass trial
      = b.counted Act.nap mayPass (fun _ => trial) 0 b.initialDelay ∧
    (n ≠ 0 → ∃ i, IsLast mayPass results n i) ∧
    (∀ i, IsLast mayPass results n i →
      ((∀ j < i, b.IsBounded (factors j) j) → ∃ sleeps : List Duration, sleeps.length = i ∧
        retried = (some (results i), Act.paced (fun _ => ()) 0 sleeps, i + 1, i) ∧
        counted = (some (results i), Act.paced id 0 sleeps, i + 1, i)) ∧
      ((∃ j < i, ¬ b.IsBounded (factors j) j) → retried.1 = none ∧ counted.1 = none)) ∧
    (n ≠ 0 → ∀ number : UInt32, .attempt number ∈ counted.2.1 → number.toNat ≤ n) ∧
    ∀ c : Config, c.polling.backoff.maxAttempts < 2 ^ 32 ∧
      (c.validate = .ok () → ¬ c.polling.backoff.multiplier < 0 ∧
        ∀ j, c.polling.backoff.IsBounded (factors j) j) := by
  intro n trial retried counted
  have limit : b.maxAttempts ≤ countable := by
    rw [countable_eq]
    omega
  have same : b.retry Act.nap mayPass trial
      = b.counted Act.nap mayPass (fun _ => trial) 0 b.initialDelay := retry_eq_counted limit
  have retried_eq : retried = (b.trials mayPass (fun _ => ()) 0 b.initialDelay).run
      (Act.world results factors) (0, 0) :=
    congrArg (Program.run (Act.world results factors) · (0, 0)) same
  refine ⟨same, exists_isLast mayPass results, fun i last => ?_, fun limited number mem => ?_,
    fun c => ⟨c.polling.maxAttempts.toNat_lt, fun valid => ?_⟩⟩
  · have zero (k : Nat) : (0 : UInt32).toNat + k = k := Nat.zero_add k
    have going : ∀ k < i, isFinal mayPass (results ((0 : UInt32).toNat + k)) = false := by
      intro k lt
      rw [zero]
      exact last.earlier k lt
    obtain ⟨ends, breaks⟩ := run_trials_ends nonneg limit spreads i 0 b.initialDelay rfl going
      (by rw [zero]; exact last.last) (by rw [zero]; exact last.allowed)
    simp only [zero] at ends breaks
    rw [retried_eq]
    refine ⟨fun bounded => ?_, fun long => ⟨breaks long _, breaks long id⟩⟩
    obtain ⟨sleeps, length, run⟩ := ends bounded
    exact ⟨sleeps, length, run _, run id⟩
  · obtain ⟨left, eq⟩ := Nat.exists_eq_add_one_of_ne_zero limited
    have start : (0 : UInt32).toNat + (left + 1) = b.maxAttempts := (Nat.zero_add _).trans eq.symm
    exact number_le limit left start mem
  · have nonneg := Config.not_multiplier_lt_zero valid
    exact ⟨nonneg, fun j => c.isConfigurable_backoff.isBounded nonneg (spreads j).1 (spreads j).2 j⟩

/-- Attempts that fail twice and then succeed. The third is the last if there may be five, and if
there may be three. If there may be two, the second is, and its failure is what comes out. -/
theorem retry_ends_of_failures :
    let results : Nat → Except String Nat := fun i => if i < 2 then .error "pending" else .ok i
    let run (attempts : UInt32) := (({ maxAttempts := attempts } : OperationPolling).backoff.retry
      Act.nap (fun _ => true) (Act.trial ())).run (Act.world results fun _ => 1) (0, 0)
    (∀ attempts ∈ [3, 5], ∃ first second, run attempts = (some (.ok 2),
      [.attempt (), .draw, .sleep first, .attempt (), .draw, .sleep second, .attempt ()], 3, 2)) ∧
    ∃ only, run 2 = (some (.error "pending"),
      [.attempt (), .draw, .sleep only, .attempt ()], 2, 1) := by
  intro results run
  have ends (attempts : UInt32) := retry_ends ({ maxAttempts := attempts } : OperationPolling).backoff
    (show ¬ (1.5 : Float) < 0 by decide +kernel) attempts.toNat_lt (fun _ => true) results
    (fun _ => 1) (fun _ => ⟨by decide +kernel, by decide +kernel⟩)
  have bounded (attempts : UInt32) (j : Nat) :
      ({ maxAttempts := attempts } : OperationPolling).backoff.IsBounded 1 j :=
    ((ends 0).2.2.2.2 { polling := { maxAttempts := attempts } }).2
      (Config.validate_attempts attempts) |>.2 j
  refine ⟨fun attempts mem => ?_, ?_⟩
  · have enough : 2 < attempts.toNat := by
      rcases List.mem_cons.mp mem with rfl | mem
      · decide
      · cases List.mem_singleton.mp mem
        decide
    have last : IsLast (fun _ => true) results attempts.toNat 2 :=
      ⟨by decide, .inl rfl, .inl enough⟩
    obtain ⟨sleeps, length, run, _⟩ :=
      ((ends attempts).2.2.1 2 last).1 fun j _ => bounded attempts j
    match sleeps, length with
    | [first, second], _ => exact ⟨first, second, run⟩
  · have last : IsLast (fun _ => true) results 2 1 :=
      ⟨by decide, .inr rfl, .inl (by decide)⟩
    obtain ⟨sleeps, length, run, _⟩ := ((ends 2).2.2.1 1 last).1 fun j _ => bounded 2 j
    match sleeps, length with
    | [only], _ => exact ⟨only, run⟩

/-- The longest of all spans is as long as the limit in floating-point arithmetic. A pause that
grows up to it breaks the attempts off, after the first of two. -/
theorem retry_breaks_of_longest :
    let b : Backoff :=
      { maxAttempts := 2, initialDelay := .ofMilliseconds 1,
        maxDelay := ⟨Duration.bound - 1⟩, multiplier := 1e30 }
    let results : Nat → Except String Nat := fun i => if i = 0 then .error "pending" else .ok i
    let run := (b.retry Act.nap (fun _ => true) (Act.trial ())).run
      (Act.world results fun _ => 1) (0, 0)
    ¬ b.multiplier < 0 ∧ IsLast (fun _ => true) results b.maxAttempts 1 ∧
      run.1 = none ∧ run.2.2 = (1, 1) := by
  refine ⟨by decide +kernel, ⟨by decide, .inl rfl, .inl (by decide)⟩, ?_⟩
  decide +kernel

end Backoff

end NodeProvisioner
