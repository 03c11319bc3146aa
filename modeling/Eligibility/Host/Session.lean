import Eligibility.ConditionCache
import Eligibility.Host.Argument
import Eligibility.RuleBook

/-!
# Host sessions

A session is what the library keeps for a host: one rule book and one cache. A `HostCall` is a
call of one of the functions that the host knows, which `HostSession.make` makes. The arguments
are bound and converted from left to right, records and definitions last, and only then is the
book or the cache asked; so a call with a fault in its arguments leaves the session as it was.
-/

namespace Eligibility

/-- A function that the host can call. -/
inductive HostFunction where
  | createRule
  | loadRules
  | getRules
  | evaluateRule
  | evaluateAsync
  | checkRule
  | clearRuleCache
  | combineRules
  | deleteRule
  | setRuleActive
  deriving DecidableEq

/-- What a call gives back to the host. -/
inductive HostAnswer where
  | nothing
  | truth (value : Bool)
  | id (id : Nat)
  | ids (ids : List Nat)
  | rules (rules : List Rule)
  deriving DecidableEq

/-- The rules and the cache of a host. -/
structure HostSession where
  book : RuleBook
  cache : ConditionCache

namespace HostFunction

/-- The function of a name. -/
def ofName? : String → Option HostFunction
  | "create_rule" => some createRule
  | "load_rules" => some loadRules
  | "get_rules" => some getRules
  | "evaluate_rule" => some evaluateRule
  | "evaluate_async" => some evaluateAsync
  | "check_rule" => some checkRule
  | "clear_rule_cache" => some clearRuleCache
  | "combine_rules" => some combineRules
  | "delete_rule" => some deleteRule
  | "set_rule_active" => some setRuleActive
  | _ => none

/-- The parameters of a function, in order. -/
def parameters : HostFunction → List HostParameter
  | createRule => [⟨"name", true⟩, ⟨"rule_string", true⟩, ⟨"description", false⟩]
  | loadRules => [⟨"rules", true⟩]
  | getRules | clearRuleCache => []
  | evaluateRule | evaluateAsync => [⟨"rule_id", true⟩, ⟨"data", true⟩]
  | checkRule => [⟨"rule_string", true⟩, ⟨"data", true⟩]
  | combineRules => [⟨"rule_ids", true⟩]
  | deleteRule => [⟨"rule_id", true⟩]
  | setRuleActive => [⟨"rule_id", true⟩, ⟨"active", true⟩]

end HostFunction

/-- A call with its arguments converted. -/
inductive HostRequest where
  | create (definition : RuleDefinition)
  | load (set : RuleSet)
  | list
  | evaluate (id : Nat) (record : Record)
  | check (text : String) (record : Record)
  | clearCache
  | combine (ids : List Nat)
  | delete (id : Nat)
  | setActive (id : Nat) (active : Bool)

namespace HostRequest

/-- Converts the arguments of a call from left to right. -/
def ofArguments (function : HostFunction) (arguments : List (Option HostValue)) :
    Except HostFault HostRequest :=
  match function, arguments with
  | .createRule, [some name, some text, description] => do
    let name ← name.toText
    let text ← text.toText
    let description ← (description.getD .none).toOptionalText
    return create ⟨name, description.getD "", text⟩
  | .loadRules, [some rules] => do
    return load ⟨← (← rules.toItems).mapM HostValue.toDefinition⟩
  | .getRules, [] => .ok list
  | .evaluateRule, [some id, some data] | .evaluateAsync, [some id, some data] => do
    let id ← id.toId
    let entries ← data.toEntries
    return evaluate id (← HostValue.toRecord entries)
  | .checkRule, [some text, some data] => do
    let text ← text.toText
    let entries ← data.toEntries
    return check text (← HostValue.toRecord entries)
  | .clearRuleCache, [] => .ok clearCache
  | .combineRules, [some ids] => do
    return combine (← ids.toIds)
  | .deleteRule, [some id] => do
    return delete (← id.toId)
  | .setRuleActive, [some id, some active] => do
    let id ← id.toId
    return setActive id (← active.toBool)
  | _, _ => .error .wrongType

/-- Binds and converts the arguments of a call. -/
def ofCall (function : HostFunction) (positional : List HostValue)
    (named : List (String × HostValue)) : Except HostFault HostRequest := do
  ofArguments function (← bindArguments function.parameters positional named)

end HostRequest

/-- A call: the clock that it looks at, and what its arguments are converted to. -/
structure HostCall where
  clock : Clock
  request : Except HostFault HostRequest

/-- The call of a function with arguments. -/
def HostCall.ofValues (clock : Clock) (function : HostFunction) (positional : List HostValue)
    (named : List (String × HostValue)) : HostCall :=
  ⟨clock, HostRequest.ofCall function positional named⟩

namespace HostSession

/-- The session without rules. -/
def empty : HostSession := ⟨.empty, .empty⟩

/-- The answer to the host from that of the book. -/
def answer {α : Type} (write : α → HostAnswer) (result : Except RuleError α) :
    Except HostFault HostAnswer :=
  (result.map write).mapError .failed

/-- Answers a request. -/
def run (session : HostSession) (clock : Clock) :
    HostRequest → Except HostFault HostAnswer × HostSession
  | .create definition =>
    let (result, book) := session.book.create clock.now definition
    (answer (fun rule => .id rule.id) result, { session with book })
  | .load set =>
    let (result, book) := session.book.load clock set
    (answer (fun rules => .ids (rules.map Rule.id)) result, { session with book })
  | .list => (.ok (.rules session.book.toList), session)
  | .evaluate id record => (answer .truth (session.book.eval id record), session)
  | .check text record =>
    let (result, cache) := session.cache.check text record
    (answer .truth result, { session with cache })
  | .clearCache => (.ok .nothing, { session with cache := .empty })
  | .combine ids =>
    let (result, book) := session.book.combine clock ids
    (answer (fun rule => .id rule.id) result, { session with book })
  | .delete id =>
    let (result, book) := session.book.delete id
    (answer (fun _ => .nothing) result, { session with book })
  | .setActive id active =>
    let (result, book) := session.book.setActive id active
    (answer (fun _ => .nothing) result, { session with book })

/-- Makes a call. -/
def make (session : HostSession) (c : HostCall) : Except HostFault HostAnswer × HostSession :=
  match c.request with
  | .error fault => (.error fault, session)
  | .ok request => session.run c.clock request

/-- Makes the call of a function with arguments, at one instant. -/
def call (session : HostSession) (now : Instant) (function : HostFunction)
    (positional : List HostValue) (named : List (String × HostValue)) :
    Except HostFault HostAnswer × HostSession :=
  session.make (.ofValues now function positional named)

/-- The session that calls leave, made one after the other. -/
def after (session : HostSession) : List HostCall → HostSession
  | [] => session
  | c :: calls => (session.make c).2.after calls

/-- Those of the calls that return, in order. -/
def returned (session : HostSession) : List HostCall → List HostCall
  | [] => []
  | c :: calls =>
    match session.make c with
    | (.error _, session) => session.returned calls
    | (.ok _, session) => c :: session.returned calls

end HostSession

end Eligibility
