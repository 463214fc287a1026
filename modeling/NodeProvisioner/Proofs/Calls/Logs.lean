import NodeProvisioner.Compute.Wait
import NodeProvisioner.Proofs.Runs.Ends

/-!
# Logs of calls

A log lists the calls that a program has made, each with what it has been answered with, the last
one first. Where any call may be answered with anything, the logs of a program tell all that it
may do, in whatever world it is run.

Main statements: `exists_log_of_run`, that each run leaves such a log; `Ends.lasts`, that what only
certain calls can put an end to lasts as long as the log has none of them.
-/

namespace NodeProvisioner

namespace Program

variable {C : Type} {A : C → Type} {α β σ : Type}

/-- Any call may be answered with anything, and is put into the log. -/
def logging : Rules A (List (Sigma A)) := fun c past answer log => log = ⟨c, answer⟩ :: past

/-- The rules, with a log besides. -/
def Rules.logged (rules : Rules A σ) : Rules A (σ × List (Sigma A)) :=
  fun c s answer t => rules c s.1 answer t.1 ∧ logging c s.2 answer t.2

theorem Ends.log {rules : Rules A σ} {p : Program A α} {s t : σ × List (Sigma A)} {r : Option α}
    (h : p.Ends rules.logged s r t) : p.Ends logging s.2 r t.2 :=
  h.map Prod.snd fun _ _ _ _ => And.right

/-- What has been logged stays in the log. -/
theorem suffix_of_ends : ∀ {p : Program A α} {past : List (Sigma A)} {r : Option α}
    {log : List (Sigma A)}, p.Ends logging past r log → past <:+ log
  | done _, _, _, _, ⟨_, same⟩ => same ▸ List.suffix_rfl
  | abort, _, _, _, ⟨_, same⟩ => same ▸ List.suffix_rfl
  | call _ _, _, _, _, ⟨_, _, rule, h⟩ => by
    have later := suffix_of_ends h
    rw [rule] at later
    exact (List.suffix_cons _ _).trans later

/-- **A run in a world leaves a log of its calls.** -/
theorem exists_log_of_run (world : World A σ) : ∀ (p : Program A α) (s : σ)
    (past : List (Sigma A)), ∃ log, p.Ends logging past (p.run world s).1 log ∧
      log.map Sigma.fst = (p.run world s).2.1.reverse ++ past.map Sigma.fst
  | done _, _, past => ⟨past, ⟨rfl, rfl⟩, rfl⟩
  | abort, _, past => ⟨past, ⟨rfl, rfl⟩, rfl⟩
  | call c next, s, past => by
    obtain ⟨log, ends, calls⟩ := exists_log_of_run world (next (world c s).1) (world c s).2
      (⟨c, (world c s).1⟩ :: past)
    refine ⟨log, ⟨_, _, rfl, ends⟩, ?_⟩
    rw [calls]
    simp [run]

/-- However calls are answered, a program comes to an end. -/
theorem exists_ends_answered (answers : (c : C) → A c) : ∀ (p : Program A α)
    (past : List (Sigma A)), ∃ r events, p.Ends logging past r (events ++ past) ∧
      ∀ event ∈ events, event.2 = answers event.1
  | done a, past => ⟨some a, [], ⟨rfl, rfl⟩, List.forall_mem_nil _⟩
  | abort, past => ⟨none, [], ⟨rfl, rfl⟩, List.forall_mem_nil _⟩
  | call c next, past => by
    obtain ⟨r, events, ends, answered⟩ := exists_ends_answered answers (next (answers c))
      (⟨c, answers c⟩ :: past)
    refine ⟨r, events ++ [⟨c, answers c⟩], ⟨answers c, ⟨c, answers c⟩ :: past, rfl, ?_⟩,
      fun event mem => ?_⟩
    · rwa [List.append_assoc]
    · obtain earlier | last := List.mem_append.mp mem
      · exact answered event earlier
      · obtain rfl := List.mem_singleton.mp last
        rfl

/-- **What no call but those of a kind puts an end to lasts** as long as no such call is made. -/
theorem Ends.lasts {rules : Rules A σ} {kind : C → Prop} {Lasting : σ → Prop}
    (lasts : ∀ c s answer t, ¬ kind c → rules c s answer t → Lasting s → Lasting t) :
    ∀ {p : Program A α} {s t : σ × List (Sigma A)} {r : Option α}, p.Ends rules.logged s r t →
      (∀ event ∈ t.2, ¬ kind event.1) → Lasting s.1 → Lasting t.1
  | done _, _, _, _, ⟨_, same⟩, _, now => same ▸ now
  | abort, _, _, _, ⟨_, same⟩, _, now => same ▸ now
  | call c _, s, t, _, ⟨answer, u, ⟨rule, logged⟩, h⟩, never, now => by
    have mem : ⟨c, answer⟩ ∈ t.2 := (suffix_of_ends h.log).subset (logged ▸ List.mem_cons_self)
    exact h.lasts lasts never (lasts c s.1 answer u.1 (never _ mem) rule now)

end Program

end NodeProvisioner
