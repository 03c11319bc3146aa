import Eligibility.Proofs.Grammar

/-!
# How far a rule has been taken

What begins a rule can be told from the left, token by token : all that counts is how many
parentheses are open and what comes next. `Cursor` holds these two, and `Cursor.stop` takes tokens
as long as they may stand where they do.

The tokens that have been taken are open groups and, inside the innermost of them, an expression
up to what comes next (`Cursor.IsAfter`). One token keeps this (`Cursor.IsAfter.next`), so every
run does (`Cursor.taken_of_stop`), and what is missing can be supplied
(`Cursor.IsAfter.beginsRule`). Where the cursor stops before a token, it does so in every
continuation. Hence some continuation of a row of tokens is a rule exactly if the cursor takes the
whole row (`Cursor.beginsRule_iff`).
-/

namespace Eligibility

variable {tokens rest taken : List Token} {condition : Condition}

/-- The tokens are a rule as a whole. -/
def IsRule (tokens : List Token) : Prop :=
  ∃ condition, Derives .expression tokens condition

/-- Some continuation of the tokens is a rule. -/
def BeginsRule (tokens : List Token) : Prop :=
  ∃ more, IsRule (tokens ++ more)

/-! ## Taking tokens from the left -/

/-- What comes next in a rule. -/
inductive Slot where
  | field
  | comparator (field : String)
  | literal (field symbol : String)
  /-- A term is over : another one may be joined, and a group may be closed. -/
  | more

/-- How far a rule has been taken : how many parentheses are open, and what comes next. -/
structure Cursor where
  opened : Nat
  slot : Slot

namespace Cursor

/-- Before the first token. -/
def start : Cursor := ⟨0, .field⟩

/-- Takes a token, if it may stand here. -/
def next? : Cursor → Token → Option Cursor
  | ⟨opened, .field⟩, .openParen => some ⟨opened + 1, .field⟩
  | ⟨opened, .field⟩, .word field => some ⟨opened, .comparator field⟩
  | ⟨opened, .comparator field⟩, .comparator symbol => some ⟨opened, .literal field symbol⟩
  | ⟨opened, .literal _ _⟩, token => token.literal?.map fun _ => ⟨opened, .more⟩
  | ⟨opened, .more⟩, .connective _ => some ⟨opened, .field⟩
  | ⟨opened + 1, .more⟩, .closeParen => some ⟨opened, .more⟩
  | _, _ => none

/-- Takes tokens as long as they may stand where they do : the place where that ends, and the
tokens that are left. -/
def stop (cursor : Cursor) : List Token → Cursor × List Token
  | [] => (cursor, [])
  | token :: rest =>
    match cursor.next? token with
    | some next => next.stop rest
    | none => (cursor, token :: rest)

/-- What may be taken at a place, and where that leads. -/
inductive Takes : Cursor → Token → Cursor → Prop
  | openParen (opened : Nat) : Takes ⟨opened, .field⟩ .openParen ⟨opened + 1, .field⟩
  | field (opened : Nat) (name : String) :
    Takes ⟨opened, .field⟩ (.word name) ⟨opened, .comparator name⟩
  | comparator (opened : Nat) (name symbol : String) :
    Takes ⟨opened, .comparator name⟩ (.comparator symbol) ⟨opened, .literal name symbol⟩
  | literal (opened : Nat) (name symbol : String) {token : Token} {literal : Literal} :
    token.literal? = some literal → Takes ⟨opened, .literal name symbol⟩ token ⟨opened, .more⟩
  | connective (opened : Nat) (c : Connective) :
    Takes ⟨opened, .more⟩ (.connective c) ⟨opened, .field⟩
  | closeParen (opened : Nat) : Takes ⟨opened + 1, .more⟩ .closeParen ⟨opened, .more⟩

variable {cursor next : Cursor} {token : Token}

theorem takes_of_next? (h : cursor.next? token = some next) : Takes cursor token next := by
  unfold next? at h
  split at h
  case h_4 =>
    obtain ⟨literal, hliteral, rfl⟩ := Option.map_eq_some_iff.mp h
    exact .literal _ _ _ hliteral
  case h_7 => cases h
  all_goals
    obtain rfl := Option.some.inj h
    constructor

theorem stop_cons_of_some (h : cursor.next? token = some next) :
    cursor.stop (token :: rest) = next.stop rest := by
  rw [stop, h]

theorem stop_cons_of_none (h : cursor.next? token = none) :
    cursor.stop (token :: rest) = (cursor, token :: rest) := by
  rw [stop, h]

/-- A property that is kept token by token holds of what has been taken when the cursor
stops. -/
theorem taken_of_stop {P : Cursor → List Token → Prop}
    (step : ∀ {cursor taken token next}, P cursor taken → Takes cursor token next →
      P next (taken ++ [token])) :
    ∀ (tokens : List Token) (cursor : Cursor) (taken : List Token), P cursor taken →
      ∃ more, tokens = more ++ (cursor.stop tokens).2 ∧ P (cursor.stop tokens).1 (taken ++ more)
  | [], cursor, taken, h => ⟨[], rfl, by rwa [List.append_nil]⟩
  | token :: rest, cursor, taken, h => by
    cases hnext : cursor.next? token with
    | none =>
      rw [stop_cons_of_none hnext]
      exact ⟨[], rfl, by rwa [List.append_nil]⟩
    | some next =>
      rw [stop_cons_of_some hnext]
      obtain ⟨more, hmore, hP⟩ :=
        taken_of_stop step rest next (taken ++ [token]) (step h (takes_of_next? hnext))
      exact ⟨token :: more, by rw [List.cons_append, ← hmore], by simpa using hP⟩

/-- Where the cursor has stopped before a token, it stops in every continuation. -/
theorem stop_append_of_cons : ∀ {tokens : List Token} {cursor : Cursor},
    (cursor.stop tokens).2 ≠ [] → ∀ more,
      cursor.stop (tokens ++ more) = ((cursor.stop tokens).1, (cursor.stop tokens).2 ++ more)
  | [], _, h, _ => absurd rfl h
  | token :: rest, cursor, h, more => by
    cases hnext : cursor.next? token with
    | none =>
      rw [stop_cons_of_none hnext, List.cons_append, stop_cons_of_none hnext]
    | some next =>
      rw [stop_cons_of_some hnext] at h ⊢
      rw [List.cons_append, stop_cons_of_some hnext]
      exact stop_append_of_cons h more

end Cursor

/-! ## What has been taken -/

/-- What stands before a term in its expression : nothing, or an expression and a connective. -/
inductive IsLead : List Token → Prop
  | nil : IsLead []
  | connective {tokens : List Token} (c : Connective) :
    IsRule tokens → IsLead (tokens ++ [.connective c])

/-- A term completes an expression. -/
theorem IsLead.append_term {lead : List Token} (h : IsLead lead)
    (hterm : Derives .term tokens condition) : IsRule (lead ++ tokens) := by
  cases h with
  | nil => exact ⟨condition, .single hterm⟩
  | connective c hrule =>
    obtain ⟨left, hleft⟩ := hrule
    exact ⟨.join c left condition, by simpa using Derives.join c hleft hterm⟩

/-- The tokens open groups one inside another and close none of these. -/
inductive OpensGroups : Nat → List Token → Prop
  | none : OpensGroups 0 []
  | group {opened : Nat} {groups lead : List Token} : OpensGroups opened groups → IsLead lead →
    OpensGroups (opened + 1) (groups ++ (lead ++ [.openParen]))

/-- What has been taken of an expression in which this comes next. -/
def Slot.IsAfter : Slot → List Token → Prop
  | .field, tokens => IsLead tokens
  | .comparator name, tokens => ∃ lead, tokens = lead ++ [.word name] ∧ IsLead lead
  | .literal name symbol, tokens =>
    ∃ lead, tokens = lead ++ [.word name, .comparator symbol] ∧ IsLead lead
  | .more, tokens => IsRule tokens

namespace Cursor

/-- What has been taken : the groups that are open, and the expression inside of them. -/
def IsAfter (cursor : Cursor) (taken : List Token) : Prop :=
  ∃ groups inner, taken = groups ++ inner ∧ OpensGroups cursor.opened groups ∧
    cursor.slot.IsAfter inner

theorem isAfter_start : start.IsAfter [] :=
  ⟨[], [], rfl, .none, IsLead.nil⟩

/-- One more token is taken as the cursor says. -/
theorem IsAfter.next {cursor next : Cursor} {token : Token} (h : cursor.IsAfter taken)
    (htakes : Takes cursor token next) : next.IsAfter (taken ++ [token]) := by
  obtain ⟨groups, inner, rfl, hgroups, hinner⟩ := h
  rw [List.append_assoc]
  cases htakes with
  | openParen opened =>
    exact ⟨groups ++ (inner ++ [.openParen]), [], by simp, .group hgroups hinner, IsLead.nil⟩
  | field opened name => exact ⟨groups, _, rfl, hgroups, inner, rfl, hinner⟩
  | comparator opened name symbol =>
    obtain ⟨lead, rfl, hlead⟩ := hinner
    exact ⟨groups, _, rfl, hgroups, lead, by simp, hlead⟩
  | literal opened name symbol hliteral =>
    obtain ⟨lead, rfl, hlead⟩ := hinner
    have hrule := hlead.append_term (derives_of_literal? name symbol hliteral)
    exact ⟨groups, _, rfl, hgroups, by simpa [Slot.IsAfter] using hrule⟩
  | connective opened c => exact ⟨groups, _, rfl, hgroups, IsLead.connective c hinner⟩
  | closeParen opened =>
    -- the innermost group is a term of the expression around it
    obtain ⟨condition, hinner⟩ := hinner
    cases hgroups with
    | @group _ groups lead hgroups hlead =>
      exact ⟨groups, lead ++ (.openParen :: (inner ++ [.closeParen])), by simp, hgroups,
        hlead.append_term (.group hinner)⟩

/-- The parentheses that are open are those that have not been closed. -/
theorem Takes.opened {cursor next : Cursor} {token : Token} (h : Takes cursor token next) :
    [token].count .closeParen + next.opened = [token].count .openParen + cursor.opened := by
  cases h with
  | @literal _ _ _ token _ hliteral =>
    cases token with
    | word | quoted | number => rfl
    | _ => cases hliteral
  | _ => simp [Nat.add_comm]

/-- When the cursor stops, the tokens before it have been taken. -/
theorem isAfter_stop (tokens : List Token) : ∃ taken,
    tokens = taken ++ (start.stop tokens).2 ∧ (start.stop tokens).1.IsAfter taken ∧
      taken.count .closeParen + (start.stop tokens).1.opened = taken.count .openParen := by
  refine taken_of_stop (P := fun cursor taken => cursor.IsAfter taken ∧
    taken.count .closeParen + cursor.opened = taken.count .openParen) ?_ tokens start []
    ⟨isAfter_start, rfl⟩
  rintro cursor taken token next ⟨hafter, hcount⟩ htakes
  have hopened := htakes.opened
  rw [List.count_append, List.count_append]
  exact ⟨hafter.next htakes, by omega⟩

end Cursor

/-! ## What begins a rule -/

/-- Tokens with which an expression can be completed where this comes next. -/
def Slot.completion : Slot → List Token
  | .field => [.word "a", .comparator "=", .quoted ""]
  | .comparator _ => [.comparator "=", .quoted ""]
  | .literal _ _ => [.quoted ""]
  | .more => []

namespace Cursor

/-- Tokens that complete a rule : the expression, and what closes the groups around it. -/
def completion (cursor : Cursor) : List Token :=
  cursor.slot.completion ++ List.replicate cursor.opened .closeParen

theorem stop_closeParens : ∀ opened : Nat,
    stop ⟨opened, .more⟩ (List.replicate opened .closeParen) = (⟨0, .more⟩, [])
  | 0 => rfl
  | opened + 1 => by
    rw [List.replicate_succ, stop_cons_of_some rfl]
    exact stop_closeParens opened

/-- The cursor takes the completion up to the end of the rule. -/
theorem stop_completion (cursor : Cursor) : cursor.stop cursor.completion = (⟨0, .more⟩, []) := by
  obtain ⟨opened, slot⟩ := cursor
  cases slot <;> exact stop_closeParens opened

/-- At the end of a rule a rule has been taken. -/
theorem IsAfter.isRule (h : IsAfter ⟨0, .more⟩ taken) : IsRule taken := by
  obtain ⟨groups, inner, rfl, hgroups, hinner⟩ := h
  cases hgroups
  exact hinner

/-- Whatever has been taken begins a rule. -/
theorem IsAfter.beginsRule {cursor : Cursor} (h : cursor.IsAfter taken) : BeginsRule taken := by
  obtain ⟨more, hmore, hafter⟩ :=
    taken_of_stop (P := IsAfter) IsAfter.next cursor.completion cursor taken h
  rw [stop_completion] at hafter
  exact ⟨more, hafter.isRule⟩

/-- A phrase is taken from the front of any row of tokens. -/
theorem stop_phrase {phrase : Phrase} (h : Derives phrase tokens condition) :
    ∀ (opened : Nat) (rest : List Token),
      stop ⟨opened, .field⟩ (tokens ++ rest) = stop ⟨opened, .more⟩ rest := by
  induction h with
  | number | quoted | word =>
    intro opened rest
    rfl
  | single _ ih => exact ih
  | @group tokens _ _ ih =>
    intro opened rest
    have hinner := ih (opened + 1) (.closeParen :: rest)
    rw [List.cons_append, List.append_assoc, stop_cons_of_some rfl]
    exact hinner.trans (stop_cons_of_some rfl)
  | @join tokens tokens' _ _ c _ _ ih ih' =>
    intro opened rest
    rw [List.append_assoc, List.cons_append, ih, stop_cons_of_some rfl, ih']

/-- A rule is taken as a whole. -/
theorem stop_of_isRule (h : IsRule tokens) : start.stop tokens = (⟨0, .more⟩, []) := by
  obtain ⟨condition, hderives⟩ := h
  have hstop := stop_phrase hderives 0 []
  rwa [List.append_nil] at hstop

/-- Tokens begin a rule exactly if the cursor can take all of them. -/
theorem beginsRule_iff : BeginsRule tokens ↔ (start.stop tokens).2 = [] := by
  constructor
  · rintro ⟨more, hrule⟩
    by_contra hleft
    have hstop := stop_of_isRule hrule
    rw [stop_append_of_cons hleft] at hstop
    exact hleft (List.append_eq_nil_iff.mp (Prod.mk.inj hstop).2).1
  · intro hleft
    obtain ⟨taken, htokens, hafter, -⟩ := isAfter_stop tokens
    rw [hleft, List.append_nil] at htokens
    exact htokens ▸ hafter.beginsRule

end Cursor

end Eligibility
