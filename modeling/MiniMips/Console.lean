/-!
# `MiniMips.Console`: what the machine has reported

The console is a log. Records arrive on one of three channels and keep their order.
-/

set_option autoImplicit false

namespace MiniMips

/-- What a record of the console is about. -/
inductive Channel where
  /-- Output of the program. -/
  | normal
  /-- Faults. -/
  | error
  /-- Traces of executed instructions and ignored requests. -/
  | debug
deriving DecidableEq, Repr

namespace Channel

/-- All channels. -/
def all : List Channel :=
  [normal, error, debug]

/-- The colour in which records of the channel are shown. -/
def style : Channel → String
  | normal => ""
  | error => "red"
  | debug => "green"

end Channel

/-- A record of the console. -/
structure ConsoleRecord where
  channel : Channel
  text : String
deriving DecidableEq, Repr

/-- The log of all records in the order of their arrival. -/
structure Console where
  records : Array ConsoleRecord
deriving DecidableEq, Repr

namespace Console

/-- The console without records. -/
def empty : Console :=
  ⟨#[]⟩

/-- The console with one more record. -/
def print (console : Console) (channel : Channel) (text : String) : Console :=
  ⟨console.records.push ⟨channel, text⟩⟩

/-- The texts of the records of a channel. -/
def texts (console : Console) (channel : Channel) : List String :=
  (console.records.toList.filter (·.channel == channel)).map (·.text)

/-- Whether there is no record. -/
def isEmpty (console : Console) : Bool :=
  console.records.isEmpty

/-- Number of records. -/
def size (console : Console) : Nat :=
  console.records.size

end Console

end MiniMips
