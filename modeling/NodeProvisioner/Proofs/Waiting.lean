import NodeProvisioner.Compute.Wait
import NodeProvisioner.Proofs.Calls.Drafts
import NodeProvisioner.Proofs.Pauses

/-!
# Waiting to the end

An operation is polled until a poll shows it done, or as often as there are attempts. Polls that
fail and polls that show it going on are not told apart on the way, and only the last is spoken of
in the end. Whether an operation that is done has failed is up to the errors that it carries.

There always is a next pause, since the configuration is valid.

Main statement: `Operation.wait_polls`.
-/

namespace NodeProvisioner

/-! ## Polls -/

/-- A world in which the polls that are made are answered by these, one after the other. -/
def answering (answers : Nat → Except ComputeError Operation) : Program.World Call.Answer Nat :=
  fun call made =>
    match call with
    | .pollOperation _ _ _ => (answers made, made + 1)
    | other => (other.welcome, made)

/-- A call that is made again after each of the pauses. -/
def paced (call : Call) : List Duration → List Call
  | [] => [call]
  | pause :: rest => call :: .pause pause :: paced call rest

namespace Operation

/-- The poll has shown the operation done. -/
def Shown (answer : Except ComputeError Operation) (last : Operation) : Prop :=
  answer = .ok last ∧ last.status = "DONE"

/-- Of the polls, this is the first that shows the operation done. -/
def FirstShown (answers : Nat → Except ComputeError Operation) (i : Nat) (last : Operation) :
    Prop :=
  Shown (answers i) last ∧ ∀ j < i, ∀ o, ¬ Shown (answers j) o

/-- What is said of a poll that does not show the operation done. -/
def missed (machine : String) : Except ComputeError Operation → Error
  | .ok o => .operationPending o.name o.status
  | .error e => .provisioning machine "zoneOperations.get" e.message

/-- What an operation that is done is reported as. -/
def reported (machine : String) (o : Operation) : Except Error Operation :=
  let failures := (o.error.map (·.errors)).getD []
  if failures = [] then .ok o
  else .error (.provisioning machine o.operationType
    ("; ".intercalate (failures.map fun e => e.code ++ ": " ++ e.message)))

theorem succeeded_eq (machine : String) (o : Operation) :
    o.succeeded machine = o.reported machine := by
  unfold succeeded reported errorMessage?
  rcases o.error with _ | ⟨_ | ⟨e, rest⟩⟩ <;> rfl

variable {machine project zone name : String} {answers : Nat → Except ComputeError Operation}

/-- What a poll comes to. -/
def looked (machine : String) : Except ComputeError Operation → Except Error Operation
  | .ok o => o.finished
  | .error e => .error (.provisioning machine "zoneOperations.get" e.message)

theorem looked_of_shown {answer : Except ComputeError Operation} {last : Operation}
    (shown : Shown answer last) : looked machine answer = .ok last := by
  obtain ⟨rfl, done⟩ := shown
  simp [looked, finished, isDone, done]

theorem looked_of_not_shown {answer : Except ComputeError Operation}
    (going : ∀ o, ¬ Shown answer o) :
    looked machine answer = .error (missed machine answer) := by
  cases answer with
  | error e => rfl
  | ok o =>
    have going : o.status ≠ "DONE" := fun done => going o ⟨rfl, done⟩
    simp [looked, missed, finished, isDone, going]

theorem poll_eq (machine project zone name : String) :
    (poll machine project zone name).run = .call (.pollOperation project zone name) fun answer =>
      .done (looked machine answer) := by
  refine congrArg (Program.call (Call.pollOperation project zone name)) (funext fun answer => ?_)
  cases answer with
  | error e => rfl
  | ok o =>
    change (MonadExcept.ofExcept o.finished : Pass Operation).run = .done o.finished
    cases o.finished <;> rfl

theorem isRetryable_missed (answer : Except ComputeError Operation) :
    (missed machine answer).isRetryable = true := by
  cases answer <;> rfl

variable {b : Backoff}

/-- The attempts to see the operation done, as many as can be counted. -/
def looks (b : Backoff) (machine project zone name : String) (left : Nat) (delay : Duration) :
    Program Call.Answer (Except Error Operation) :=
  b.attempts (fun d => .perform (Call.pause d)) Error.isRetryable
    (poll machine project zone name).run left delay

/-- What becomes of the attempts is up to the next poll. -/
theorem run_looks (b : Backoff) (left : Nat) (delay : Duration) (i : Nat) :
    (looks b machine project zone name (left + 1) delay).run (answering answers) i =
      match looked machine (answers i) with
      | .ok o => (some (.ok o), [.pollOperation project zone name], i + 1)
      | .error e =>
        if !e.isRetryable || (b.maxAttempts ≠ 0 && left = 0) then
          (some (.error e), [.pollOperation project zone name], i + 1)
        else
          match b.nextDelay? delay with
          | none => (none, [.pollOperation project zone name, .pause delay], i + 1)
          | some next =>
            let (result, calls, s) := (looks b machine project zone name left next).run
              (answering answers) (i + 1)
            (result, .pollOperation project zone name :: .pause delay :: calls, s) := by
  simp only [looks, Backoff.attempts, poll_eq, Program.bind, Program.run, answering]
  cases looked machine (answers i) with
  | ok o => rfl
  | error e =>
    simp only
    split
    · rfl
    · cases b.nextDelay? delay <;> rfl

/-- A poll that does not show the operation done is followed by a pause and the next one, unless it
was the last. -/
theorem run_looks_of_not_shown {i left : Nat} (going : ∀ o, ¬ Shown (answers i) o)
    (goesOn : b.maxAttempts = 0 ∨ left ≠ 0) {delay next : Duration}
    (grown : b.nextDelay? delay = some next) :
    (looks b machine project zone name (left + 1) delay).run (answering answers) i =
      let (result, calls, s) := (looks b machine project zone name left next).run
        (answering answers) (i + 1)
      (result, .pollOperation project zone name :: .pause delay :: calls, s) := by
  have goesOn : (b.maxAttempts ≠ 0 && left = 0) = false := by
    obtain unlimited | more := goesOn
    · simp [unlimited]
    · simp [more]
  rw [run_looks, looked_of_not_shown going]
  simp only [isRetryable_missed, goesOn, grown]
  rfl

theorem run_looks_of_shown {i left : Nat} {last : Operation} (shown : Shown (answers i) last)
    (delay : Duration) :
    (looks b machine project zone name (left + 1) delay).run (answering answers) i =
      (some (.ok last), [.pollOperation project zone name], i + 1) := by
  rw [run_looks, looked_of_shown shown]

theorem run_looks_of_last {i : Nat} (going : ∀ o, ¬ Shown (answers i) o)
    (limited : b.maxAttempts ≠ 0) (delay : Duration) :
    (looks b machine project zone name 1 delay).run (answering answers) i =
      (some (.error (missed machine (answers i))), [.pollOperation project zone name], i + 1) := by
  rw [run_looks, looked_of_not_shown going]
  simp only [isRetryable_missed]
  rw [if_pos (by simp [limited])]

/-- **Polls go on to the first that shows the operation done**, if there are attempts enough. -/
theorem run_looks_first (pauses : ∀ d, ∃ next, b.nextDelay? d = some next) {last : Operation} :
    ∀ {i s left : Nat} (delay : Duration), i < left →
      Shown (answers (s + i)) last → (∀ j < i, ∀ o, ¬ Shown (answers (s + j)) o) →
      ∃ delays, delays.length = i ∧
        (looks b machine project zone name left delay).run (answering answers) s =
          (some (.ok last), paced (.pollOperation project zone name) delays, s + i + 1)
  | 0, s, left + 1, delay, _, shown, _ => ⟨[], rfl, run_looks_of_shown shown delay⟩
  | i + 1, s, left + 1, delay, lt, shown, going => by
    obtain ⟨next, grown⟩ := pauses delay
    have rest : ∀ j < i, ∀ o, ¬ Shown (answers (s + 1 + j)) o := by
      intro j lt
      rw [Nat.add_assoc, Nat.add_comm 1 j]
      exact going (j + 1) (Nat.succ_lt_succ lt)
    obtain ⟨delays, length, run⟩ := run_looks_first pauses next (Nat.lt_of_succ_lt_succ lt)
      (by rwa [Nat.add_assoc, Nat.add_comm 1 i]) rest
    refine ⟨delay :: delays, congrArg (· + 1) length, ?_⟩
    have first : ∀ o, ¬ Shown (answers s) o := going 0 (Nat.succ_pos i)
    rw [run_looks_of_not_shown first (.inr (by omega)) grown, run, Nat.add_assoc s 1 i,
      Nat.add_comm 1 i]
    rfl

/-- **Attempts run out if no poll shows the operation done**; the last is what is spoken of. -/
theorem run_looks_none (pauses : ∀ d, ∃ next, b.nextDelay? d = some next)
    (limited : b.maxAttempts ≠ 0) : ∀ {left s : Nat} (delay : Duration),
      (∀ j ≤ left, ∀ o, ¬ Shown (answers (s + j)) o) →
      ∃ delays, delays.length = left ∧
        (looks b machine project zone name (left + 1) delay).run (answering answers) s =
          (some (.error (missed machine (answers (s + left)))),
            paced (.pollOperation project zone name) delays, s + left + 1)
  | 0, s, delay, going => ⟨[], rfl, run_looks_of_last (going 0 (Nat.le_refl 0)) limited delay⟩
  | left + 1, s, delay, going => by
    obtain ⟨next, grown⟩ := pauses delay
    have rest : ∀ j ≤ left, ∀ o, ¬ Shown (answers (s + 1 + j)) o := by
      intro j le
      rw [Nat.add_assoc, Nat.add_comm 1 j]
      exact going (j + 1) (Nat.succ_le_succ le)
    obtain ⟨delays, length, run⟩ := run_looks_none pauses limited next rest
    refine ⟨delay :: delays, congrArg (· + 1) length, ?_⟩
    have first : ∀ o, ¬ Shown (answers s) o := going 0 (Nat.zero_le _)
    rw [run_looks_of_not_shown first (.inr (Nat.succ_ne_zero left)) grown, run,
      Nat.add_assoc s 1 left, Nat.add_comm 1 left]
    rfl

/-! ## Waiting -/

/-- The number of attempts that there are. -/
def allowed (b : Backoff) : Nat := if b.maxAttempts = 0 then Backoff.countable else b.maxAttempts

theorem lt_allowed {b : Backoff} {i : Nat}
    (lt : i < b.maxAttempts ∨ b.maxAttempts = 0 ∧ i < Backoff.countable) : i < allowed b := by
  unfold allowed
  split
  · rename_i unlimited
    exact lt.elim (fun lt => by omega) And.right
  · rename_i limited
    exact lt.elim id fun both => absurd both.1 limited

theorem run_ofExcept_succeeded (o : Operation) :
    (MonadExcept.ofExcept (o.succeeded machine) : Pass Operation).run
      = .done (o.reported machine) := by
  rw [succeeded_eq]
  cases o.reported machine <;> rfl

theorem wait_of_done {o : Operation} (done : o.status = "DONE") (b : Backoff) :
    (o.wait b machine project zone).run = .done (o.reported machine) := by
  have done : o.isDone = true := by simp [isDone, done]
  rw [wait, if_pos done, pure_bind, run_ofExcept_succeeded]

theorem run_wait {o : Operation} (going : o.status ≠ "DONE") {b : Backoff} {calls : List Call}
    {result : Except Error Operation} {s t : Nat}
    (run : (looks b machine project zone o.name (allowed b) b.initialDelay).run (answering answers) s
      = (some result, calls, t)) :
    (o.wait b machine project zone).run.run (answering answers) s =
      (some (result.bind fun last => last.reported machine), calls, t) := by
  have going : ¬ o.isDone = true := by simp [isDone, going]
  rw [wait, if_neg going]
  change ((looks b machine project zone o.name (allowed b) b.initialDelay).bind _).run _ _ = _
  rw [Program.run_bind, run]
  cases result with
  | error e =>
    change (_, calls ++ [], t) = _
    rw [List.append_nil]
    rfl
  | ok last =>
    change (let (result, more, u) := (MonadExcept.ofExcept (last.succeeded machine) :
      Pass Operation).run.run (answering answers) t; (result, calls ++ more, u)) = _
    rw [run_ofExcept_succeeded]
    change (_, calls ++ [], t) = _
    rw [List.append_nil]
    rfl

/-- **Waiting makes the polls up to the first that shows the operation done, or as many as there may
be.** -/
theorem wait_polls (c : Config) (valid : c.validate = .ok ()) (o : Operation)
    (machine project zone : String) (answers : Nat → Except ComputeError Operation) :
    let b := c.polling.backoff
    let n := c.polling.maxAttempts.toNat
    let poll := Call.pollOperation project zone o.name
    let run := (o.wait b machine project zone).run.run (answering answers) 0
    (o.status = "DONE" → run = (some (o.reported machine), [], 0)) ∧
    (o.status ≠ "DONE" →
      (∀ i last, FirstShown answers i last → i < n ∨ n = 0 ∧ i < Backoff.countable →
        ∃ delays, delays.length = i ∧
          run = (some (last.reported machine), paced poll delays, i + 1)) ∧
      (n ≠ 0 → (∀ i < n, ∀ last, ¬ Shown (answers i) last) →
        ∃ delays, delays.length + 1 = n ∧
          run = (some (.error (missed machine (answers (n - 1)))), paced poll delays, n)) ∧
      ∀ counted i last, n = 0 → FirstShown answers i last → i < counted →
        ∃ delays, delays.length = i ∧
          (looks b machine project zone o.name counted b.initialDelay).run (answering answers) 0 =
            (some (.ok last), paced poll delays, i + 1)) := by
  intro b n poll run
  have pauses : ∀ d, ∃ next, b.nextDelay? d = some next := c.exists_nextDelay? valid
  have counted {left i : Nat} {last : Operation} (first : FirstShown answers i last)
      (lt : i < left) : ∃ delays, delays.length = i ∧
        (looks b machine project zone o.name left b.initialDelay).run (answering answers) 0 =
          (some (.ok last), paced poll delays, i + 1) := by
    obtain ⟨shown, before⟩ := first
    obtain ⟨delays, length, ends⟩ := run_looks_first pauses b.initialDelay lt (s := 0)
      (by rwa [Nat.zero_add]) (fun j lt o => by rw [Nat.zero_add]; exact before j lt o)
    rw [Nat.zero_add] at ends
    exact ⟨delays, length, ends⟩
  refine ⟨fun done => ?_, fun going => ⟨fun i last first lt => ?_, fun limited none => ?_,
    fun left i last _ first lt => counted first lt⟩⟩
  · rw [show run = _ from congrArg (Program.run (answering answers) · 0) (wait_of_done done b)]
    rfl
  · obtain ⟨delays, length, ends⟩ := counted first (lt_allowed (b := b) lt)
    exact ⟨delays, length, run_wait going ends⟩
  · obtain ⟨left, eq⟩ := Nat.exists_eq_add_one_of_ne_zero limited
    have none : ∀ j ≤ left, ∀ o, ¬ Shown (answers (0 + j)) o := by
      intro j le
      rw [Nat.zero_add]
      exact none j (by omega)
    obtain ⟨delays, length, ends⟩ := run_looks_none pauses limited b.initialDelay none
    rw [← (if_neg limited).trans eq, Nat.zero_add] at ends
    refine ⟨delays, length.symm ▸ eq.symm, ?_⟩
    rw [eq]
    exact run_wait going ends

/-- A poll fails, the next shows the operation going on, and the third shows it done with two
errors: it is waited for to the end without a limit, and not if there are two attempts. -/
theorem wait_polls_of_failed :
    let failed : Operation := { name := "operation", status := "DONE", operationType := "insert",
                                error := some ⟨[⟨"QUOTA", "exceeded"⟩, ⟨"ZONE", "exhausted"⟩]⟩ }
    let answers : Nat → Except ComputeError Operation
      | 0 => .error (.transport "reset")
      | 1 => .ok { name := "operation", status := "RUNNING" }
      | _ => .ok failed
    let o : Operation := { name := "operation", status := "PENDING" }
    let poll := Call.pollOperation "project" "zone" "operation"
    let wait (attempts : UInt32) := (o.wait ({ maxAttempts := attempts } : OperationPolling).backoff
      "machine" "project" "zone").run.run (answering answers) 0
    (∃ first second, wait 0 = (some (.error (.provisioning "machine" "insert"
        "QUOTA: exceeded; ZONE: exhausted")), [poll, .pause first, poll, .pause second, poll], 3)) ∧
      ∃ only, wait 2 = (some (.error (.operationPending "operation" "RUNNING")),
        [poll, .pause only, poll], 2) := by
  intro failed answers o poll wait
  have going : ∀ i < 2, ∀ last, ¬ Shown (answers i) last := by
    rintro (_ | _ | i) lt last ⟨answered, done⟩
    · cases answered
    · cases answered
      exact absurd done (by decide)
    · omega
  have first : FirstShown answers 2 failed := ⟨⟨rfl, rfl⟩, going⟩
  obtain ⟨-, waits⟩ := wait_polls _ (Config.validate_attempts 0) o "machine" "project" "zone"
    answers
  obtain ⟨-, waits'⟩ := wait_polls _ (Config.validate_attempts 2) o "machine" "project" "zone"
    answers
  obtain ⟨delays, length, ends⟩ := (waits (by decide)).1 2 failed first (.inr ⟨rfl, by decide⟩)
  obtain ⟨delays', length', ends'⟩ := (waits' (by decide)).2.1 (by decide) going
  match delays, length, delays', length' with
  | [a, b], _, [d], _ => exact ⟨⟨a, b, ends⟩, d, ends'⟩

end Operation

end NodeProvisioner
