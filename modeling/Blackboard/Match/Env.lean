import Blackboard.OrderedMap
import Blackboard.Term.Basic

/-!
# Environments

An environment is a row of frames, each of which binds a variable to a term. Binding puts a frame in
front and touches nothing behind it, so an environment can be extended in several ways side by side.

There are two views of it: `Env.lookup` walks from the latest frame and stops at the first one of
the name, and `Env.bindings` goes through the frames from the earliest on and lists every variable
where it was first bound, with the term it was bound to last.
-/

namespace Blackboard

/-- Variables and their terms, in the order in which the variables were first bound. -/
abbrev Bindings := OrderedMap String Term

/-- A row of frames, the latest first. -/
structure Env where
  frames : List (String × Term)
deriving DecidableEq, Repr

namespace Env

/-- The environment that binds nothing. -/
def empty : Env := ⟨[]⟩

/-- The number of frames. -/
def size (e : Env) : Nat := e.frames.length

/-- Whether nothing is bound. -/
def isEmpty (e : Env) : Bool := e.frames.isEmpty

/-- The term that a variable was bound to last. -/
def lookup (e : Env) (name : String) : Option Term := lookupEntry name e.frames

/-- Binds a variable to a term. -/
def bind (e : Env) (name : String) (t : Term) : Env := ⟨(name, t) :: e.frames⟩

/-- The variables with their terms. -/
def bindings (e : Env) : Bindings := .ofList e.frames.reverse

end Env

end Blackboard
