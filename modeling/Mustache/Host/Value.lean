import Mustache.Host

/-!
# Values

Data that a host can serve: plain values, lambdas that follow a script, and stand-ins whose every
answer is scripted, for trying a template on a host that misbehaves. A path leads from a value
through the members of maps; only maps have members. A list has its elements, and any other value
that counts as true has itself as its only element.
-/

namespace Mustache

/-- A step in writing a value. A write that fails ends the script, unless it is only tried. -/
inductive WriteStep
  | text (text : Text)
  | raw (text : Text)
  /-- Writes raw whether text is escaped here: `E` if so, `R` if not. -/
  | escapedMark
  | tryText (text : Text)
  | tryRaw (text : Text)
  deriving DecidableEq, Repr

/-- A step in expanding a lambda. A step that fails ends the script, unless it is only tried. -/
inductive ExpandStep
  | write (text : Text)
  | render (text : Text)
  /-- Writes the source of the body. -/
  | inner
  /-- Renders the source of the body between two texts. -/
  | wrap (before after : Text)
  /-- Writes which tag calls the lambda: `S` for a section, `V` for a variable. -/
  | kind
  /-- Writes how often the lambda has been called. -/
  | count
  | tryWrite (text : Text)
  | tryRender (text : Text)
  deriving DecidableEq, Repr

/-- Steps, and the answer that is given after them. -/
structure Script (Step : Type) where
  steps : List Step
  result : HostResult

mutual

/-- Data of a host. The number of a lambda or stand-in tells it from all others. -/
inductive Value
  | null
  | bool (b : Bool)
  | int (n : Int)
  | text (t : Text)
  | list (elements : List Value)
  | map (members : List (Text × Value))
  /-- Whoever asks about it gets an error. -/
  | failing (error : ResolveError)
  | lambda (number : Nat) (expansion : Script ExpandStep)
  | standIn (number : Nat) (elements : List Scripted) (writing : Script WriteStep)
      (expansion : Script ExpandStep) (hint : Resolution × Nat)

/-- A scripted answer to a look-up. -/
inductive Scripted
  | resolution (resolution : Resolution)
  | failing (error : ResolveError)
  | field (value : Value)

end

namespace Value

/-- The member of a name. -/
def member? (v : Value) (name : Text) : Option Value :=
  match v with
  | map members => members.lookup name
  | _           => none

/-- What is reached by a sequence of names. -/
def descend? : List Text → Value → Option Value
  | [],        v => some v
  | s :: rest, v => (v.member? s).bind (descend? rest)

/-- What a path leads to. The name at its head decides whether the value knows the path at all. -/
def resolve (v : Value) (path : Path) : Except Resolution Value :=
  match path.segments with
  | []        => .ok v
  | s :: rest =>
    match v.member? s with
    | none       => .error .notFound
    | some inner =>
      match descend? rest inner with
      | none       => .error .broken
      | some value => .ok value

/-- Whether a value counts as true in a section. -/
def isTruthy : Value → Bool
  | null       => false
  | bool b     => b
  | list elems => !elems.isEmpty
  | _          => true

/-- The element of a value at an index. -/
def element (v : Value) (index : Nat) : Except ResolveError (Lookup Value) :=
  match v with
  | failing e => .error e
  | lambda .. => .ok .lambda
  | list elements =>
    match elements[index]? with
    | some elem => .ok (.field elem)
    | none      => .ok .consumed
  | standIn _ elements _ _ _ =>
    match elements[index]? with
    | some (.resolution r) => .ok (.ofResolution r)
    | some (.failing e)    => .error e
    | some (.field elem)   => .ok (.field elem)
    | none                 => .ok .consumed
  | v => if index = 0 && v.isTruthy then .ok (.field v) else .ok .consumed

/-- How a scalar is written; nothing for any other value. -/
def scalar? : Value → Option Text
  | bool true  => some ['t', 'r', 'u', 'e']
  | bool false => some ['f', 'a', 'l', 's', 'e']
  | int n      => some (.ofInt n)
  | text t     => some t
  | _          => none

/-- The probable size of a value. -/
def hint : Value → Resolution × Nat
  | text t               => (.field, t.byteSize)
  | int _                => (.field, 8)
  | lambda ..            => (.lambda, 0)
  | standIn _ _ _ _ hint => hint
  | _                    => (.field, 0)

end Value

end Mustache
