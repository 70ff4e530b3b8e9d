import PeerFleet.Log

/-! # Programs

A program is a tree of calls to what surrounds it, with the log lines it writes on the
way. What a call does is settled by whoever runs the program: one call after another, or
many programs taking turns.
-/

namespace PeerFleet

/-- The calls that a program may make and what each of them answers. -/
structure Interface where
  Call : Type
  Answer : Call → Type

inductive Program (I : Interface) (α : Type) where
  | done (result : α)
  | note (line : LogLine) (rest : Program I α)
  | call (c : I.Call) (rest : I.Answer c → Program I α)

namespace Program

variable {I : Interface} {α β σ : Type}

def bind : Program I α → (α → Program I β) → Program I β
  | done a, f => f a
  | note line rest, f => note line (rest.bind f)
  | call c rest, f => call c fun a => (rest a).bind f

instance : Monad (Program I) where
  pure := done
  bind := bind

def ask (c : I.Call) : Program I (I.Answer c) :=
  call c done

/-- The program of one log line. -/
def log (line : LogLine) : Program I Unit :=
  note line (done ())

def interpret {J : Interface} (f : (c : I.Call) → Program J (I.Answer c)) :
    Program I α → Program J α
  | done a => done a
  | note line rest => note line (rest.interpret f)
  | call c rest => (f c).bind fun a => (rest a).interpret f

/-- Runs a program alone: `handle` answers its calls and `write` takes its log lines. -/
def run (handle : (c : I.Call) → σ → I.Answer c × σ) (write : LogLine → σ → σ) :
    Program I α → σ → α × σ
  | done a, s => (a, s)
  | note line rest, s => rest.run handle write (write line s)
  | call c rest, s =>
    let (a, s) := handle c s
    (rest a).run handle write s

end Program

end PeerFleet
