import NodeProvisioner.Proofs.Runs.Parts

/-!
# Reaches

The reach of a pass is what it may address: instances of a project at certain places, and one
record. A program is confined to a reach if all of its calls stay within it, as long as the record
of a namespace and a name that is read is one of that namespace and name.

What is confined is built from confined parts; there is one lemma for each way of putting parts
together, and one for each part of a pass.
-/

namespace NodeProvisioner

/-! ## Confined programs -/

/-- All calls of the program are within bounds, as long as they are answered fairly; and what it
ends in is as said. -/
def Program.Confined {C : Type} {A : C → Type} {α : Type} (within : C → Prop)
    (fair : (c : C) → A c → Prop) (post : α → Prop) : Program A α → Prop
  | done a => post a
  | abort => True
  | call c next => within c ∧ ∀ answer, fair c answer → (next answer).Confined within fair post

namespace Program

variable {C : Type} {A : C → Type} {α β ε : Type} {within : C → Prop}
  {fair : (c : C) → A c → Prop}

theorem Confined.mono {post post' : α → Prop} (le : ∀ a, post a → post' a) :
    ∀ {p : Program A α}, p.Confined within fair post → p.Confined within fair post'
  | done a, h => le a h
  | abort, _ => trivial
  | call _ _, ⟨here, rest⟩ => ⟨here, fun answer hears => (rest answer hears).mono le⟩

theorem Confined.bind {post : α → Prop} {post' : β → Prop} {f : α → Program A β} :
    ∀ {p : Program A α}, p.Confined within fair post →
      (∀ a, post a → (f a).Confined within fair post') → (p.bind f).Confined within fair post'
  | done a, h, rest => rest a h
  | abort, _, _ => trivial
  | call _ _, ⟨here, h⟩, rest => ⟨here, fun answer hears => (h answer hears).bind rest⟩

theorem confined_perform {c : C} {post : A c → Prop} (here : within c)
    (hears : ∀ answer, fair c answer → post answer) : (perform c).Confined within fair post :=
  ⟨here, hears⟩

end Program

/-- What a pass may address: a project, the places of instances there, and a record. -/
structure Reach where
  project : String → Prop
  place : String → String → Prop
  space : String
  name : String

/-- The call stays within the reach. -/
def Call.Within (r : Reach) : Call → Prop
  | getInstance project zone name => r.project project ∧ r.place zone name
  | insertInstance project zone wanted => r.project project ∧ r.place zone wanted.name
  | deleteInstance project zone name => r.project project ∧ r.place zone name
  | pollOperation project zone _ => r.project project ∧ ∃ name, r.place zone name
  | createToken => True
  | readRecord ns name => ns = r.space ∧ name = r.name
  | writeRecord m => m.IsFiled r.space r.name
  | pause _ => True

/-- A record that is found is the one of the namespace and the name that were asked for. -/
def Call.Fair : (c : Call) → c.Answer → Prop
  | readRecord ns name, .ok (some m) => m.IsFiled ns name
  | _, _ => True

/-! ## Confined parts -/

/-- The part of a pass is confined to the reach; and where it does not fail, it ends as said. -/
def Reach.Confines {ε α : Type} (r : Reach) (q : ExceptT ε (Program Call.Answer) α)
    (post : α → Prop) : Prop :=
  q.run.Confined (·.Within r) Call.Fair fun result => ∀ a, result = .ok a → post a

namespace Reach

variable {ε α β : Type} {r : Reach} {post : α → Prop} {post' : β → Prop}

theorem Confines.bind {q : ExceptT ε (Program Call.Answer) α}
    {f : α → ExceptT ε (Program Call.Answer) β} (h : r.Confines q post)
    (rest : ∀ a, post a → r.Confines (f a) post') : r.Confines (q >>= f) post' := by
  refine Program.Confined.bind h fun result good => ?_
  cases result with
  | ok a => exact rest a (good a rfl)
  | error e => exact nofun

theorem confines_pure {a : α} (h : post a) :
    r.Confines (pure a : ExceptT ε (Program Call.Answer) α) post := by
  rintro _ ⟨⟩
  exact h

theorem confines_throw {e : ε} :
    r.Confines (throw e : ExceptT ε (Program Call.Answer) α) post := nofun

/-- What makes no call is confined. -/
theorem confines_done (result : Except ε α) (h : ∀ a, result = .ok a → post a) :
    r.Confines (ExceptT.mk (.done result)) post := h

theorem confines_ofExcept (result : Except ε α) (h : ∀ a, result = .ok a → post a) :
    r.Confines (MonadExcept.ofExcept result : ExceptT ε (Program Call.Answer) α) post := by
  cases result with
  | ok a => exact confines_pure (h a rfl)
  | error e => exact nofun

theorem Confines.adapt {ε' : Type} {q : ExceptT ε (Program Call.Answer) α} (h : r.Confines q post)
    (f : ε → ε') : r.Confines (ExceptT.adapt f q) post := by
  refine Program.Confined.bind h fun result good => ?_
  rintro a eq
  cases result <;> cases eq
  exact good a rfl

/-- A call to the provider is confined if it stays within the reach. -/
theorem confines_provider {machine operation : String}
    {answer : Program Call.Answer (Except ComputeError α)}
    (h : answer.Confined (·.Within r) Call.Fair fun _ => True) :
    r.Confines (Pass.provider machine operation answer) fun _ => True :=
  Program.Confined.bind h fun _ _ _ _ => trivial

/-- Attempts are confined if each of them is, and the pauses between them are. -/
theorem confined_attempts {C : Type} {A : C → Type} {within : C → Prop}
    {fair : (c : C) → A c → Prop} {pause : Duration → Program A Unit} {mayPass : ε → Bool}
    {attempt : Program A (Except ε α)} (b : Backoff)
    (pauses : ∀ d, (pause d).Confined within fair fun _ => True)
    (attempts : attempt.Confined within fair fun _ => True) : ∀ (left : Nat) (delay : Duration),
      (b.attempts pause mayPass attempt left delay).Confined within fair fun _ => True
  | 0, _ => trivial
  | left + 1, delay => by
    refine attempts.bind fun result _ => ?_
    cases result with
    | ok a => exact trivial
    | error e =>
      simp only
      split
      · exact trivial
      · refine (pauses delay).bind fun _ _ => ?_
        cases b.nextDelay? delay with
        | none => exact trivial
        | some next => exact confined_attempts b pauses attempts left next

/-- Waiting for an operation at a place within the reach is confined. -/
theorem confines_wait {o : Operation} {b : Backoff} {machine project zone name : String}
    (own : r.project project) (place : r.place zone name) :
    r.Confines (o.wait b machine project zone) fun _ => True := by
  have poll : r.Confines (Operation.poll machine project zone o.name) fun _ => True := by
    refine Confines.bind (confines_provider ?_) fun o _ => confines_ofExcept _ fun _ _ => trivial
    exact Program.confined_perform ⟨own, name, place⟩ fun _ _ => trivial
  have polls : r.Confines (ExceptT.mk (b.retry (fun d => .perform (Call.pause d)) Error.isRetryable
      (Operation.poll machine project zone o.name).run)) fun _ => True := by
    refine Program.Confined.mono (fun _ _ _ _ => trivial) (confined_attempts b (fun d => ?_) ?_ _ _)
    · exact Program.confined_perform trivial fun _ _ => trivial
    · exact poll.mono fun _ _ => trivial
  unfold Operation.wait
  split
  · have done : r.Confines (pure o : Pass Operation) fun _ => True := confines_pure trivial
    exact done.bind fun _ _ => confines_ofExcept _ fun _ _ => trivial
  · exact polls.bind fun _ _ => confines_ofExcept _ fun _ _ => trivial

/-- The site is within the reach. -/
structure Holds (r : Reach) (site : Site) : Prop where
  project : r.project site.project
  place : r.place site.spec.zone site.name

section

variable {site : Site} (h : r.Holds site)

include h

theorem Holds.find : r.Confines site.find fun _ => True :=
  confines_provider (Program.confined_perform ⟨h.project, h.place⟩ fun _ _ => trivial)

theorem Holds.insert {b : Backoff} {wanted : Instance} (own : wanted.name = site.name) :
    r.Confines (site.insert b wanted) fun _ => True := by
  have within : (Call.insertInstance site.project site.spec.zone wanted).Within r :=
    ⟨h.project, own ▸ h.place⟩
  refine Confines.bind (confines_provider ?_) fun _ _ => confines_wait h.project h.place
  exact Program.confined_perform within fun _ _ => trivial

theorem Holds.delete {b : Backoff} : r.Confines (site.delete b) fun _ => True := by
  refine Confines.bind (confines_provider ?_) fun _ _ => confines_wait h.project h.place
  exact Program.confined_perform ⟨h.project, h.place⟩ fun _ _ => trivial

end

/-- Taking a snapshot is confined: what is written is the record that has been read. -/
theorem confines_record {m : Machine} (filed : m.IsFiled r.space r.name) :
    r.Confines (Pass.record m) fun _ => True := by
  have read : r.Confines (Pass.readRecord m.namespaceText m.metadata.nameOrStem) fun found =>
      ∀ stored, found = some stored → stored.IsFiled r.space r.name := by
    refine Program.confined_perform ⟨filed.space, filed.name⟩ fun answer fair => ?_
    rintro _ rfl stored rfl
    exact ⟨fair.space.trans filed.space, fair.name.trans filed.name⟩
  refine read.bind fun found own => ?_
  cases found with
  | none => exact confines_throw
  | some stored =>
    exact Program.confined_perform ((own stored rfl).withSnapshot m) fun _ _ _ _ => trivial

end Reach

end NodeProvisioner
