import NodeProvisioner.Backoff
import NodeProvisioner.Pass.Call

/-!
# Ends of programs

A world need not be a function: rules may leave open what a call is answered with and what becomes
of the world. A program then has several ends. A world that is a function is a case of this.

Of a pass it matters whether it comes to its end, and with which value; not with which error it
fails.
-/

namespace NodeProvisioner

/-! ## Programs -/

namespace Program

variable {C : Type} {A : C → Type} {α β σ : Type}

/-- Rules say which answers to a call are possible, and what may become of the world by it. -/
abbrev Rules (A : C → Type) (σ : Type) := (c : C) → σ → A c → σ → Prop

/-- The program may end in this value, unless it aborts, and with this world. -/
def Ends (rules : Rules A σ) : Program A α → σ → Option α → σ → Prop
  | done a, s, r, t => r = some a ∧ t = s
  | abort, s, r, t => r = none ∧ t = s
  | call c next, s, r, t => ∃ answer u, rules c s answer u ∧ (next answer).Ends rules u r t

theorem ends_perform {rules : Rules A σ} {c : C} {s t : σ} {r : Option (A c)} :
    (perform c).Ends rules s r t ↔ ∃ answer, rules c s answer t ∧ r = some answer := by
  constructor
  · rintro ⟨answer, u, rule, rfl, rfl⟩
    exact ⟨answer, rule, rfl⟩
  · rintro ⟨answer, rule, rfl⟩
    exact ⟨answer, t, rule, rfl, rfl⟩

/-- **An end of two programs in sequence is an end of the one, followed by an end of the other.** -/
theorem ends_bind {rules : Rules A σ} (p : Program A α) (f : α → Program A β) {s t : σ}
    {r : Option β} : (p.bind f).Ends rules s r t ↔
      (∃ a u, p.Ends rules s (some a) u ∧ (f a).Ends rules u r t) ∨
        (r = none ∧ p.Ends rules s none t) := by
  induction p generalizing s with
  | done a =>
    constructor
    · intro h
      exact .inl ⟨a, s, ⟨rfl, rfl⟩, h⟩
    · rintro (⟨b, u, ⟨eq, rfl⟩, h⟩ | ⟨_, eq, _⟩)
      · cases eq
        exact h
      · cases eq
  | abort =>
    constructor
    · rintro ⟨rfl, rfl⟩
      exact .inr ⟨rfl, rfl, rfl⟩
    · rintro (⟨b, u, ⟨eq, _⟩, _⟩ | ⟨rfl, _, rfl⟩)
      · cases eq
      · exact ⟨rfl, rfl⟩
  -- the call belongs to the first program, and the induction is on what follows it
  | call c next ih =>
    constructor
    · rintro ⟨answer, u, rule, h⟩
      obtain ⟨a, v, first, second⟩ | ⟨rfl, first⟩ := (ih answer).mp h
      · exact .inl ⟨a, v, ⟨answer, u, rule, first⟩, second⟩
      · exact .inr ⟨rfl, answer, u, rule, first⟩
    · rintro (⟨a, v, ⟨answer, u, rule, first⟩, second⟩ | ⟨rfl, answer, u, rule, first⟩)
      · exact ⟨answer, u, rule, (ih answer).mpr (.inl ⟨a, v, first, second⟩)⟩
      · exact ⟨answer, u, rule, (ih answer).mpr (.inr ⟨rfl, first⟩)⟩

/-- The same where the first program may fail. -/
theorem ends_exceptBind {ε : Type} {rules : Rules A σ} {q : ExceptT ε (Program A) α}
    {f : α → ExceptT ε (Program A) β} {s t : σ} {r : Option (Except ε β)} :
    (q >>= f).run.Ends rules s r t ↔
      (∃ a u, q.run.Ends rules s (some (.ok a)) u ∧ (f a).run.Ends rules u r t) ∨
        (∃ e, r = some (.error e) ∧ q.run.Ends rules s (some (.error e)) t) ∨
          (r = none ∧ q.run.Ends rules s none t) := by
  constructor
  · intro h
    obtain ⟨own, u, first, rest⟩ | none := (ends_bind _ _).mp h
    · cases own with
      | ok a => exact .inl ⟨a, u, first, rest⟩
      | error e =>
        obtain ⟨rfl, rfl⟩ := rest
        exact .inr (.inl ⟨e, rfl, first⟩)
    · exact .inr (.inr none)
  · rintro (⟨a, u, first, rest⟩ | ⟨e, rfl, first⟩ | none)
    · exact (ends_bind _ _).mpr (.inl ⟨_, u, first, rest⟩)
    · exact (ends_bind _ _).mpr (.inl ⟨_, t, first, rfl, rfl⟩)
    · exact (ends_bind _ _).mpr (.inr none)

theorem ends_exceptOf {ε : Type} {rules : Rules A σ} {result : Except ε α} {s t : σ}
    {r : Option (Except ε α)} :
    (MonadExcept.ofExcept result : ExceptT ε (Program A) α).run.Ends rules s r t ↔
      r = some result ∧ t = s := by
  cases result <;> exact Iff.rfl

/-- A result that is given is used at once, or the program fails. -/
theorem ends_exceptOf_bind {ε : Type} {rules : Rules A σ} {result : Except ε α}
    {f : α → ExceptT ε (Program A) β} {s t : σ} {r : Option (Except ε β)} :
    ((MonadExcept.ofExcept result : ExceptT ε (Program A) α) >>= f).run.Ends rules s r t ↔
      (∃ a, result = .ok a ∧ (f a).run.Ends rules s r t) ∨
        ∃ e, result = .error e ∧ r = some (.error e) ∧ t = s := by
  rw [ends_exceptBind]
  constructor
  · rintro (⟨a, u, first, rest⟩ | ⟨e, rfl, first⟩ | ⟨_, first⟩)
    · obtain ⟨eq, rfl⟩ := ends_exceptOf.mp first
      exact .inl ⟨a, (Option.some.inj eq).symm, rest⟩
    · obtain ⟨eq, rfl⟩ := ends_exceptOf.mp first
      exact .inr ⟨e, (Option.some.inj eq).symm, rfl, rfl⟩
    · cases (ends_exceptOf.mp first).1
  · rintro (⟨a, rfl, rest⟩ | ⟨e, rfl, rfl, rfl⟩)
    · exact .inl ⟨a, s, ends_exceptOf.mpr ⟨rfl, rfl⟩, rest⟩
    · exact .inr (.inl ⟨e, rfl, ends_exceptOf.mpr ⟨rfl, rfl⟩⟩)

/-- If no call is left without an answer, every program comes to an end. -/
theorem exists_ends {rules : Rules A σ} (total : ∀ c s, ∃ answer t, rules c s answer t) :
    ∀ (p : Program A α) (s : σ), ∃ r t, p.Ends rules s r t
  | done a, s => ⟨some a, s, rfl, rfl⟩
  | abort, s => ⟨none, s, rfl, rfl⟩
  | call c next, s => by
    obtain ⟨answer, u, rule⟩ := total c s
    obtain ⟨r, t, h⟩ := exists_ends total (next answer) u
    exact ⟨r, t, answer, u, rule, h⟩

/-- An end is an end under other rules that the first keep to, seen through a view of the states. -/
theorem Ends.map {τ : Type} {rules : Rules A σ} {rules' : Rules A τ} (view : σ → τ)
    (keeps : ∀ c s answer t, rules c s answer t → rules' c (view s) answer (view t)) :
    ∀ {p : Program A α} {s : σ} {r : Option α} {t : σ},
      p.Ends rules s r t → p.Ends rules' (view s) r (view t)
  | done _, _, _, _, ⟨eq, same⟩ => ⟨eq, congrArg view same⟩
  | abort, _, _, _, ⟨eq, same⟩ => ⟨eq, congrArg view same⟩
  | call _ _, _, _, _, ⟨answer, u, rule, h⟩ =>
    ⟨answer, view u, keeps _ _ _ _ rule, h.map view keeps⟩

/-- With more rules there are more ends. -/
theorem Ends.mono {rules rules' : Rules A σ} (le : ∀ c s answer t, rules c s answer t →
    rules' c s answer t) {p : Program A α} {s : σ} {r : Option α} {t : σ}
    (h : p.Ends rules s r t) : p.Ends rules' s r t :=
  h.map id le

/-- An end under some rules is an end where anything may happen. -/
theorem Ends.forget {rules : Rules A σ} {p : Program A α} {s : σ} {r : Option α} {t : σ}
    (h : p.Ends rules s r t) : p.Ends (σ := Unit) (fun _ _ _ _ => True) () r () :=
  h.map (fun _ => ()) fun _ _ _ _ _ => trivial

/-- **A run in a world is an end under rules that the world keeps to**, seen through a view of the
states of the world that lasts. -/
theorem ends_of_run {τ : Type} {world : World A τ} {rules : Rules A σ} {View : τ → σ → Prop}
    (keeps : ∀ c x s, View x s → ∃ t, View (world c x).2 t ∧ rules c s (world c x).1 t) :
    ∀ (p : Program A α) {x : τ} {s : σ}, View x s →
      ∃ t, View (p.run world x).2.2 t ∧ p.Ends rules s (p.run world x).1 t
  | done _, _, s, view => ⟨s, view, rfl, rfl⟩
  | abort, _, s, view => ⟨s, view, rfl, rfl⟩
  | call c next, x, s, view => by
    obtain ⟨u, view', rule⟩ := keeps c x s view
    obtain ⟨t, view'', h⟩ := ends_of_run keeps (next (world c x).1) view'
    exact ⟨t, view'', (world c x).1, u, rule, h⟩

end Program

/-! ## Attempts -/

/-- **What each attempt keeps is kept however often attempts are made**, and what each attempt ends
in well is what they end in. -/
theorem Backoff.attempts_ends {C : Type} {A : C → Type} {σ ε α : Type} {rules : Program.Rules A σ}
    (Kept : σ → Prop) (Good : Except ε α → σ → Prop) {pause : Duration → Program A Unit}
    {attempt : Program A (Except ε α)}
    (pauses : ∀ d s r t, Kept s → (pause d).Ends rules s r t → Kept t)
    (attempts : ∀ s r t, Kept s → attempt.Ends rules s r t →
      Kept t ∧ ∀ result, r = some result → Good result t)
    (b : Backoff) (mayPass : ε → Bool) : ∀ (left : Nat) (delay : Duration) {s r t}, Kept s →
      (b.attempts pause mayPass attempt left delay).Ends rules s r t →
      Kept t ∧ ∀ result, r = some result → Good result t
  | 0, _, _, _, _, kept, ⟨eq, same⟩ => ⟨same ▸ kept, fun result h => by rw [eq] at h; cases h⟩
  | left + 1, delay, s, r, t, kept, h => by
    obtain ⟨result, u, first, rest⟩ | ⟨rfl, first⟩ := (Program.ends_bind _ _).mp h
    · obtain ⟨kept', good⟩ := attempts _ _ _ kept first
      cases result with
      | ok a =>
        obtain ⟨rfl, rfl⟩ := rest
        exact ⟨kept', good⟩
      | error e =>
        simp only at rest
        split at rest
        · obtain ⟨rfl, rfl⟩ := rest
          exact ⟨kept', good⟩
        · obtain ⟨_, v, paused, more⟩ | ⟨rfl, paused⟩ := (Program.ends_bind _ _).mp rest
          · have kept'' := pauses _ _ _ _ kept' paused
            cases grown : b.nextDelay? delay with
            | none =>
              rw [grown] at more
              obtain ⟨rfl, rfl⟩ := more
              exact ⟨kept'', nofun⟩
            | some next =>
              rw [grown] at more
              exact attempts_ends Kept Good pauses attempts b mayPass left next kept'' more
          · exact ⟨pauses _ _ _ _ kept' paused, nofun⟩
    · exact ⟨(attempts _ _ _ kept first).1, nofun⟩

/-! ## Passes -/

namespace Pass

open Program

variable {α β σ : Type} {rules : Rules Call.Answer σ} {s t : σ}

/-- A part of a pass may end in this value, unless it fails, and with this world. -/
def Ends (rules : Rules Call.Answer σ) (q : Pass α) (s : σ) (r : Option α) (t : σ) : Prop :=
  ∃ result, q.run.Ends rules s result t ∧ r = result.bind Except.toOption

theorem ends_run_provider {machine operation : String}
    {answer : Program Call.Answer (Except ComputeError α)} {r : Option (Except Error α)} :
    (provider machine operation answer).run.Ends rules s r t ↔ ∃ own, answer.Ends rules s own t ∧
      r = own.map fun result =>
        result.mapError fun e => .provisioning machine operation e.message := by
  constructor
  · intro h
    obtain ⟨own, u, first, rfl, rfl⟩ | ⟨rfl, first⟩ := (Program.ends_bind _ _).mp h
    · exact ⟨some own, first, rfl⟩
    · exact ⟨none, first, rfl⟩
  · rintro ⟨_ | own, first, rfl⟩
    · exact (Program.ends_bind _ _).mpr (.inr ⟨rfl, first⟩)
    · exact (Program.ends_bind _ _).mpr (.inl ⟨own, t, first, rfl, rfl⟩)

/-- A result that is given is used at once, or the part fails with its error. -/
theorem ends_run_ofExcept_bind {result : Except Error α} {f : α → Pass β}
    {r : Option (Except Error β)} : (ofExcept result >>= f).run.Ends rules s r t ↔
      (∃ a, result = .ok a ∧ (f a).run.Ends rules s r t) ∨
        ∃ e, result = .error e ∧ r = some (.error e) ∧ t = s := by
  have same : ofExcept result = (MonadExcept.ofExcept result : Pass α) := by
    cases result <;> rfl
  rw [same]
  exact ends_exceptOf_bind

/-- A value in the place of what a part ends in, its error kept. -/
theorem ends_run_bind_pure {q : Pass α} {b : β} {r : Option (Except Error β)} :
    (q >>= fun _ => pure b).run.Ends rules s r t ↔
      ∃ r', q.run.Ends rules s r' t ∧ r = r'.map (Except.map fun _ => b) := by
  rw [ends_exceptBind]
  constructor
  · rintro (⟨a, u, first, rfl, rfl⟩ | ⟨e, rfl, first⟩ | ⟨rfl, first⟩)
    · exact ⟨_, first, rfl⟩
    · exact ⟨_, first, rfl⟩
    · exact ⟨_, first, rfl⟩
  · rintro ⟨_ | _ | a, first, rfl⟩
    · exact .inr (.inr ⟨rfl, first⟩)
    · exact .inr (.inl ⟨_, rfl, first⟩)
    · exact .inl ⟨a, t, first, rfl, rfl⟩

theorem ends_pure {a : α} {r : Option α} :
    Ends rules (pure a) s r t ↔ r = some a ∧ t = s := by
  constructor
  · rintro ⟨_, ⟨rfl, rfl⟩, rfl⟩
    exact ⟨rfl, rfl⟩
  · rintro ⟨rfl, rfl⟩
    exact ⟨_, ⟨rfl, rfl⟩, rfl⟩

theorem ends_ofExcept {result : Except Error α} {r : Option α} :
    Ends rules (ofExcept result) s r t ↔ r = result.toOption ∧ t = s := by
  constructor
  · rintro ⟨_, ⟨rfl, rfl⟩, rfl⟩
    exact ⟨rfl, rfl⟩
  · rintro ⟨rfl, rfl⟩
    exact ⟨_, ⟨rfl, rfl⟩, rfl⟩

theorem ends_ofExcept_some {result : Except Error α} {a : α} :
    Ends rules (ofExcept result) s (some a) t ↔ result = .ok a ∧ t = s := by
  rw [ends_ofExcept]
  cases result with
  | error e => exact ⟨nofun, nofun⟩
  | ok b => exact ⟨fun h => ⟨congrArg Except.ok (Option.some.inj h.1).symm, h.2⟩,
      fun h => ⟨congrArg some (Except.ok.inj h.1).symm, h.2⟩⟩

/-- **An end of two parts of a pass is an end of the one, followed by an end of the other unless
the one fails.** -/
theorem ends_bind {q : Pass α} {f : α → Pass β} {r : Option β} :
    Ends rules (q >>= f) s r t ↔
      (∃ a u, q.Ends rules s (some a) u ∧ (f a).Ends rules u r t) ∨
        (r = none ∧ q.Ends rules s none t) := by
  constructor
  · rintro ⟨result, h, rfl⟩
    obtain ⟨a, u, first, rest⟩ | ⟨e, rfl, first⟩ | ⟨rfl, first⟩ := ends_exceptBind.mp h
    · exact .inl ⟨a, u, ⟨some (.ok a), first, rfl⟩, result, rest, rfl⟩
    · exact .inr ⟨rfl, some (.error e), first, rfl⟩
    · exact .inr ⟨rfl, none, first, rfl⟩
  · rintro (⟨a, u, ⟨own, first, eq⟩, result, rest, rfl⟩ | ⟨rfl, own, first, eq⟩)
    · match own, eq with
      | some (.ok b), eq =>
        cases eq
        exact ⟨result, ends_exceptBind.mpr (.inl ⟨_, u, first, rest⟩), rfl⟩
    · match own, eq with
      | none, _ => exact ⟨none, ends_exceptBind.mpr (.inr (.inr ⟨rfl, first⟩)), rfl⟩
      | some (.error e), _ =>
        exact ⟨some (.error e), ends_exceptBind.mpr (.inr (.inl ⟨e, rfl, first⟩)), rfl⟩

/-- A value in the place of what a part ends in. -/
theorem ends_bind_pure {q : Pass α} {b : β} {r : Option β} :
    Ends rules (q >>= fun _ => pure b) s r t ↔
      ∃ r', q.Ends rules s r' t ∧ r = r'.map fun _ => b := by
  rw [ends_bind]
  constructor
  · rintro (⟨a, u, first, rest⟩ | ⟨rfl, first⟩)
    · obtain ⟨rfl, rfl⟩ := ends_pure.mp rest
      exact ⟨some a, first, rfl⟩
    · exact ⟨none, first, rfl⟩
  · rintro ⟨_ | a, first, rfl⟩
    · exact .inr ⟨rfl, first⟩
    · exact .inl ⟨a, t, first, ends_pure.mpr ⟨rfl, rfl⟩⟩

/-- What a part with a value in its place ends in, if it fails only for a reason. -/
theorem map_eq_or_of_fails {r : Option α} {fails : Prop} (may : r = none → fails) (b : β) :
    r.map (fun _ => b) = some b ∨ r.map (fun _ => b) = none ∧ fails := by
  cases r with
  | none => exact .inr ⟨rfl, may rfl⟩
  | some _ => exact .inl rfl

/-- A result that is given is used at once, or the part fails. -/
theorem ends_ofExcept_bind {result : Except Error α} {f : α → Pass β} {r : Option β} :
    Ends rules (ofExcept result >>= f) s r t ↔
      (∃ a, result = .ok a ∧ (f a).Ends rules s r t) ∨
        ((∃ e, result = .error e) ∧ r = none ∧ t = s) := by
  rw [ends_bind]
  constructor
  · rintro (⟨a, u, first, rest⟩ | ⟨rfl, first⟩)
    · obtain ⟨eq, rfl⟩ := ends_ofExcept_some.mp first
      exact .inl ⟨a, eq, rest⟩
    · obtain ⟨eq, rfl⟩ := ends_ofExcept.mp first
      cases result with
      | ok _ => cases eq
      | error e => exact .inr ⟨⟨e, rfl⟩, rfl, rfl⟩
  · rintro (⟨a, rfl, rest⟩ | ⟨⟨e, rfl⟩, rfl, rfl⟩)
    · exact .inl ⟨a, s, ends_ofExcept_some.mpr ⟨rfl, rfl⟩, rest⟩
    · exact .inr ⟨rfl, ends_ofExcept.mpr ⟨rfl, rfl⟩⟩

theorem ends_throw {e : Error} {r : Option α} :
    Ends rules (throw e) s r t ↔ r = none ∧ t = s := by
  have refused : Ends rules (ofExcept (.error e : Except Error α)) s r t ↔ r = none ∧ t = s :=
    ends_ofExcept
  exact refused

theorem ends_monadExcept {result : Except Error α} {r : Option α} :
    Ends rules (MonadExcept.ofExcept result) s r t ↔ r = result.toOption ∧ t = s := by
  cases result with
  | ok a => exact ends_pure
  | error e => exact ends_throw

end Pass

end NodeProvisioner
