import Eligibility.Number.Rounding

/-!
# Values of a host

A host that is typed dynamically calls the library with values of its own. `HostValue` is what
such a value can be; dictionaries list their entries in the order in which the keys were first
given.
-/

namespace Eligibility

/-- A value of the host. -/
inductive HostValue where
  | none
  | bool (value : Bool)
  | int (value : Int)
  | float (value : Binary64)
  | text (value : String)
  | bytes (octets : List UInt8)
  | list (items : List HostValue)
  | tuple (items : List HostValue)
  | dict (entries : List (HostValue × HostValue))
  /-- A value with attributes and nothing else. -/
  | object (attributes : List (String × HostValue))
  /-- A value that can be converted to a number and nothing else. -/
  | floatLike (value : Binary64)

namespace HostValue

/-- Gives a value to a text key: in its place, or at the end. -/
def putText (key : String) (value : HostValue) :
    List (HostValue × HostValue) → List (HostValue × HostValue)
  | [] => [(text key, value)]
  | entry :: entries =>
    match entry.1 with
    | text other =>
      if other = key then (entry.1, value) :: entries else entry :: putText key value entries
    | _ => entry :: putText key value entries

/-- The dictionary of a list of entries; of two with the same text as key the later counts. -/
def ofEntries (entries : List (HostValue × HostValue)) : HostValue :=
  dict <| entries.foldl (fun before entry =>
    match entry.1 with
    | text key => putText key entry.2 before
    | _ => before ++ [entry]) []

/-- What stands under a text in a dictionary. -/
def entry? (name : String) : List (HostValue × HostValue) → Option HostValue
  | [] => Option.none
  | (text key, value) :: entries => if key = name then some value else entry? name entries
  | _ :: entries => entry? name entries

/-- What a value has under a name: a dictionary by its keys, anything else by its attributes. -/
def part? (name : String) : HostValue → Option HostValue
  | dict entries => entry? name entries
  | object attributes => attributes.reverse.lookup name
  | _ => Option.none

end HostValue

end Eligibility
