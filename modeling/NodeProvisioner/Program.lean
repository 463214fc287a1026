/-!
# Programs that make calls

A program computes by itself until it makes a call; what the call answers decides how it goes on.
What calls there are and what each may answer is up to the program's surroundings. So a program can
be run against any world, followed call by call, or carried over to calls of another kind.

A program may also abort: a computation whose result cannot be stated has no way to go on.

Main statements: `bind_assoc` and its companions make programs a lawful monad; `run_bind` says
that a run of two programs in sequence is the run of the one followed by the run of the other.
-/

namespace NodeProvisioner

/-- A program that makes calls `c : C`, answered by values of `A c`, and ends in a value of `α`. -/
inductive Program {C : Type} (A : C → Type) (α : Type) where
  | done (a : α)
  | abort
  | call (c : C) (next : A c → Program A α)

namespace Program

variable {C D : Type} {A : C → Type} {B : D → Type} {α β γ σ : Type}

/-- One program after the other. -/
def bind : Program A α → (α → Program A β) → Program A β
  | done a, f => f a
  | abort, _ => abort
  | call c next, f => call c fun answer => (next answer).bind f

instance : Monad (Program A) where
  pure := done
  bind := bind

/-- Makes one call. -/
def perform (c : C) : Program A (A c) := call c done

@[simp] theorem pure_bind (a : α) (f : α → Program A β) : (done a).bind f = f a := rfl

@[simp] theorem bind_done (p : Program A α) : p.bind done = p := by
  induction p with
  | done => rfl
  | abort => rfl
  | call c next ih => simp [bind, ih]

theorem bind_assoc (p : Program A α) (f : α → Program A β) (g : β → Program A γ) :
    (p.bind f).bind g = p.bind fun a => (f a).bind g := by
  induction p with
  | done => rfl
  | abort => rfl
  | call c next ih => simp [bind, ih]

instance : LawfulMonad (Program A) :=
  LawfulMonad.mk' (Program A) bind_done pure_bind bind_assoc

/-! ## Runs -/

/-- A world answers each call, and changes by it. -/
abbrev World (A : C → Type) (σ : Type) := (c : C) → σ → A c × σ

/-- The run of a program in a world: its value, unless it aborts, the calls it has made, and what
has become of the world. -/
def run (world : World A σ) : Program A α → σ → Option α × List C × σ
  | done a, s => (some a, [], s)
  | abort, s => (none, [], s)
  | call c next, s =>
    let (answer, s) := world c s
    let (result, calls, s) := (next answer).run world s
    (result, c :: calls, s)

@[simp] theorem run_done (world : World A σ) (a : α) (s : σ) :
    (done a : Program A α).run world s = (some a, [], s) := rfl

theorem run_bind (world : World A σ) (p : Program A α) (f : α → Program A β) (s : σ) :
    (p.bind f).run world s =
      match p.run world s with
      | (none, calls, s) => (none, calls, s)
      | (some a, calls, s) =>
        let (result, more, s) := (f a).run world s
        (result, calls ++ more, s) := by
  induction p generalizing s with
  | done => rfl
  | abort => rfl
  | call c next ih =>
    simp only [bind, run, ih]
    split <;> simp_all

/-! ## Carrying over -/

/-- The program with each of its calls made by a program of another kind. -/
def translate (handler : (c : C) → Program B (A c)) : Program A α → Program B α
  | done a => done a
  | abort => abort
  | call c next => (handler c).bind fun answer => (next answer).translate handler

end Program

end NodeProvisioner
