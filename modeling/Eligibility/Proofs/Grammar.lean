import Eligibility.Condition.Parser
import Eligibility.Proofs.Outcome
import Eligibility.Proofs.Scan
import Mathlib.Control.Monad.Basic

/-!
# The grammar of rules

`Derives` is the grammar by itself, without a cursor and without limits :

* an expression is a term, or an expression, a connective and a term. Both connectives bind
  equally, so that a row of terms is joined from the left;
* a term is an expression in parentheses, or a word, a comparator and a literal.

`Token.nesting` counts how many parentheses a row of tokens has open at one time.

What the grammar derives, the reader reads : it takes exactly the tokens of the phrase and
returns its condition, unless one of the two limits stands in the way, and then it reports
nothing but that (`read_append`). What the reader takes, the grammar derives
(`derives_of_expression`). `parse_eq_ok_iff` joins the two for texts.
-/

namespace Eligibility

/-- The two kinds of phrases. -/
inductive Phrase where
  | expression
  | term

/-- The grammar of rules : the tokens form a phrase that states the condition. -/
inductive Derives : Phrase → List Token → Condition → Prop
  | number (field symbol : String) (value : Binary64) :
    Derives .term [.word field, .comparator symbol, .number value]
      (.compare ⟨field, .ofSymbol symbol, .number value⟩)
  | quoted (field symbol text : String) :
    Derives .term [.word field, .comparator symbol, .quoted text]
      (.compare ⟨field, .ofSymbol symbol, .ofText text⟩)
  | word (field symbol text : String) :
    Derives .term [.word field, .comparator symbol, .word text]
      (.compare ⟨field, .ofSymbol symbol, .ofText text⟩)
  | group {tokens : List Token} {condition : Condition} :
    Derives .expression tokens condition →
      Derives .term (.openParen :: (tokens ++ [.closeParen])) condition
  | single {tokens : List Token} {condition : Condition} :
    Derives .term tokens condition → Derives .expression tokens condition
  | join {tokens tokens' : List Token} {left right : Condition} (connective : Connective) :
    Derives .expression tokens left → Derives .term tokens' right →
      Derives .expression (tokens ++ .connective connective :: tokens')
        (.join connective left right)

/-- A comparison with a literal is a term. -/
theorem derives_of_literal? {token : Token} {literal : Literal} (field symbol : String)
    (h : token.literal? = some literal) :
    Derives .term [.word field, .comparator symbol, token]
      (.compare ⟨field, .ofSymbol symbol, literal⟩) := by
  cases token with
  | number value =>
    obtain rfl := Option.some.inj h
    exact .number field symbol value
  | word text =>
    obtain rfl := Option.some.inj h
    exact .word field symbol text
  | quoted text =>
    obtain rfl := Option.some.inj h
    exact .quoted field symbol text
  | _ => cases h

/-- Parentheses around an expression do not change what it states. -/
theorem derives_nested {tokens : List Token} {condition : Condition}
    (h : Derives .expression tokens condition) : ∀ n : Nat, Derives .expression
      (List.replicate n .openParen ++ tokens ++ List.replicate n .closeParen) condition
  | 0 => by simpa using h
  | n + 1 => by
    have inner := Derives.single (.group (derives_nested h n))
    rw [List.replicate_succ, List.replicate_succ']
    simpa using inner

/-! ## Open parentheses -/

namespace Token

/-- The most parentheses that are open at one time in a row of tokens, before which `opened` are
open. -/
def nesting (opened : Nat) : List Token → Nat
  | [] => opened
  | .openParen :: tokens => nesting (opened + 1) tokens
  | .closeParen :: tokens => max opened (nesting (opened - 1) tokens)
  | _ :: tokens => nesting opened tokens

theorem le_nesting : ∀ (opened : Nat) (tokens : List Token), opened ≤ nesting opened tokens
  | _, [] => Nat.le_refl _
  | opened, token :: tokens => by
    cases token with
    | openParen => exact Nat.le_trans (Nat.le_succ _) (le_nesting (opened + 1) tokens)
    | closeParen => exact Nat.le_max_left _ _
    | _ => exact le_nesting opened tokens

end Token

open Token (nesting le_nesting)

/-- A phrase closes what it opens : the tokens after it start from the count before it. -/
theorem nesting_append {phrase : Phrase} {tokens : List Token} {condition : Condition}
    (h : Derives phrase tokens condition) : ∀ (opened : Nat) (rest : List Token),
      nesting opened (tokens ++ rest) = max (opened + nesting 0 tokens) (nesting opened rest) := by
  induction h with
  | number | quoted | word =>
    intro opened rest
    have := le_nesting opened rest
    simp only [List.cons_append, List.nil_append, nesting]
    omega
  | single _ ih => exact ih
  | @group tokens _ _ ih =>
    intro opened rest
    have := le_nesting opened rest
    have inner : ∀ opened rest, nesting opened (.openParen :: (tokens ++ [.closeParen]) ++ rest) =
        max (opened + 1 + nesting 0 tokens) (nesting opened rest) := by
      intro opened rest
      have := le_nesting opened rest
      simp only [List.cons_append, List.append_assoc, List.nil_append, nesting, ih,
        Nat.add_sub_cancel]
      omega
    have alone := inner 0 []
    rw [List.append_nil] at alone
    rw [inner, alone]
    simp only [nesting]
    omega
  | @join tokens tokens' _ _ c _ _ ih ih' =>
    intro opened rest
    have inner : ∀ opened rest,
        nesting opened (tokens ++ .connective c :: tokens' ++ rest) =
          max (opened + nesting 0 tokens)
            (max (opened + nesting 0 tokens') (nesting opened rest)) := by
      intro opened rest
      simp only [List.cons_append, List.append_assoc, ih, nesting, ih']
    have alone := inner 0 []
    rw [List.append_nil] at alone
    rw [inner, alone]
    simp only [nesting]
    omega

/-- Parentheses around a phrase add one level. -/
theorem nesting_group {tokens : List Token} {condition : Condition}
    (h : Derives .expression tokens condition) :
    nesting 0 (.openParen :: (tokens ++ [.closeParen])) = nesting 0 tokens + 1 := by
  simp only [nesting, nesting_append h]
  omega

/-- In a row of terms the parentheses of each are counted from zero. -/
theorem nesting_join {tokens tokens' : List Token} {left : Condition} (c : Connective)
    (h : Derives .expression tokens left) :
    nesting 0 (tokens ++ .connective c :: tokens') =
      max (nesting 0 tokens) (nesting 0 tokens') := by
  simp only [nesting_append h, nesting, Nat.zero_add]

/-! ## What the grammar derives is read -/

namespace Condition

/-- Another term joins what has been read, within the limit on levels. -/
theorem chain_connective (term : List Token → Except ParseError Reading) (left : Condition)
    (depth : Nat) (c : Connective) (rest : List Token) :
    chain term ⟨left, depth, .connective c :: rest⟩ = term rest >>= fun right =>
      if 1 + max depth right.depth ≤ maxDepth then
        chain term ⟨.join c left right.condition, 1 + max depth right.depth, right.rest⟩
      else .error .tooDeep := by
  rw [chain]
  simp only [throw, throwThe, MonadExceptOf.throw, dite_eq_ite]

/-- Without a connective the expression is over. -/
theorem chain_stop (term : List Token → Except ParseError Reading) {left : Reading}
    (h : ∀ c rest, left.rest ≠ .connective c :: rest) : chain term left = .ok left := by
  rw [chain]
  split
  · rename_i c rest heq
    exact absurd heq (h c rest)
  · rfl

/-- Where no parenthesis opens, a term is a comparison. -/
theorem term_eq_comparison {room : Nat} {tokens : List Token}
    (h : ∀ inner, tokens ≠ .openParen :: inner) : term room tokens = comparison tokens := by
  unfold term
  split
  · exact absurd rfl (h _)
  · rfl

/-- A term in parentheses is an expression and what closes it. -/
theorem term_openParen (room : Nat) (inner : List Token) :
    term (room + 1) (.openParen :: inner) =
      (expression room inner).bind fun reading =>
        match reading.rest with
        | .closeParen :: rest => .ok { reading with rest }
        | _ => .error .unclosedParenthesis := by
  rw [term, expression]
  cases term room inner <;> rfl

end Condition

namespace Phrase

/-- Reads a phrase from the front of a row of tokens. -/
def read (room : Nat) : Phrase → List Token → Except ParseError Reading
  | expression => Condition.expression room
  | term => Condition.term room

/-- What the reader does after a phrase : an expression may go on with a connective. -/
def resume (room : Nat) : Phrase → Reading → Except ParseError Reading
  | expression => Condition.chain (Condition.term room)
  | term => .ok

end Phrase

open Condition (chain_connective chain_stop)

/-- A phrase that the grammar derives is read from the front of any row of tokens, and the reader
goes on after it. Beyond one of the limits it reports that, and nothing else. -/
theorem read_append {phrase : Phrase} {tokens : List Token} {condition : Condition}
    (h : Derives phrase tokens condition) : ∀ (room : Nat) (rest : List Token),
      phrase.read room (tokens ++ rest) =
        if nesting 0 tokens ≤ room ∧ condition.depth ≤ maxDepth then
          phrase.resume room ⟨condition, condition.depth, rest⟩
        else .error .tooDeep := by
  induction h with
  | number | quoted | word =>
    intro room rest
    have one : 1 ≤ maxDepth := by decide
    rw [if_pos ⟨Nat.zero_le _, one⟩, Phrase.read, Condition.term]
    · rfl
    · simp
  | single _ ih =>
    intro room rest
    have read := ih room rest
    simp only [Phrase.read, Phrase.resume, Condition.expression] at read ⊢
    rw [read]
    split <;> rfl
  | group h ih =>
    intro room rest
    rw [nesting_group h, List.cons_append, List.append_assoc, Phrase.read]
    cases room with
    | zero => simp [Condition.term]
    | succ room =>
      have read := ih room ([.closeParen] ++ rest)
      simp only [Phrase.read] at read
      rw [Condition.term_openParen, read]
      simp only [Nat.add_le_add_iff_right]
      split
      · rw [Phrase.resume, chain_stop _ (by simp)]
        rfl
      · rfl
  | @join tokens tokens' left right c h _ ih ih' =>
    intro room rest
    have first := ih room (.connective c :: (tokens' ++ rest))
    have second := ih' room rest
    simp only [Phrase.read, Phrase.resume] at first second ⊢
    rw [List.append_assoc, List.cons_append, first, nesting_join c h, Condition.depth]
    -- a limit is exceeded by the first part, by the second, or by joining the two
    by_cases hl : nesting 0 tokens ≤ room ∧ left.depth ≤ maxDepth
    · by_cases hr : nesting 0 tokens' ≤ room ∧ right.depth ≤ maxDepth
      · rw [if_pos hl, chain_connective, second.trans (if_pos hr)]
        by_cases hd : 1 + max left.depth right.depth ≤ maxDepth
        · rw [if_pos ⟨by omega, hd⟩]
          exact if_pos hd
        · rw [if_neg fun h => hd h.2]
          exact if_neg hd
      · rw [if_pos hl, chain_connective, second.trans (if_neg hr), if_neg (by omega)]
        rfl
    · rw [if_neg hl, if_neg]
      omega

/-! ## What is read is derived -/

/-- The tokens taken from the front of `tokens` form a phrase that states the condition read. -/
def Reading.IsDerived (phrase : Phrase) (tokens : List Token) (reading : Reading) : Prop :=
  ∃ used, tokens = used ++ reading.rest ∧ Derives phrase used reading.condition

/-- A comparison that is read is a term. -/
theorem derives_of_comparison {tokens : List Token} {reading : Reading}
    (h : Condition.comparison tokens = .ok reading) : reading.IsDerived .term tokens := by
  unfold Condition.comparison at h
  split at h
  · rename_i field symbol token rest
    split at h
    · rename_i literal hliteral
      obtain rfl := Except.ok.inj h
      exact ⟨_, rfl, derives_of_literal? field symbol hliteral⟩
    · cases h
  all_goals cases h

/-- If only terms are read as terms, what is read by joining them is an expression. -/
theorem derives_of_chain {term : List Token → Except ParseError Reading}
    (hterm : ∀ tokens reading, term tokens = .ok reading → reading.IsDerived .term tokens)
    (left reading : Reading) (h : Condition.chain term left = .ok reading) (used : List Token)
    (hleft : Derives .expression used left.condition) :
    reading.IsDerived .expression (used ++ left.rest) := by
  fun_induction Condition.chain term left generalizing used with
  | case1 left connective rest hrest ih =>
    obtain ⟨right, hr, h⟩ := bind_eq_ok_iff.mp h
    split at h
    · rename_i hd
      obtain ⟨more, hmore, hright⟩ := hterm rest right hr
      have := ih right hd h _ (.join connective hleft hright)
      rw [hrest, hmore]
      simpa using this
    · cases h
  | case2 left hrest =>
    obtain rfl := Except.ok.inj h
    exact ⟨used, rfl, hleft⟩

theorem derives_of_expression {room : Nat}
    (hterm : ∀ tokens reading, Condition.term room tokens = .ok reading →
      reading.IsDerived .term tokens) {tokens : List Token} {reading : Reading}
    (h : Condition.expression room tokens = .ok reading) :
    reading.IsDerived .expression tokens := by
  unfold Condition.expression at h
  obtain ⟨left, hr, h⟩ := bind_eq_ok_iff.mp h
  obtain ⟨used, hused, hleft⟩ := hterm tokens left hr
  rw [hused]
  exact derives_of_chain hterm left reading h used (.single hleft)

/-- A term that is read is derived, however many parentheses it may open. -/
theorem derives_of_term : ∀ (room : Nat) (tokens : List Token) (reading : Reading),
    Condition.term room tokens = .ok reading → reading.IsDerived .term tokens := by
  intro room
  induction room with
  | zero =>
    intro tokens reading h
    unfold Condition.term at h
    split at h
    · cases h
    · exact derives_of_comparison h
  | succ room ih =>
    intro tokens reading h
    by_cases ho : ∃ inner, tokens = .openParen :: inner
    · obtain ⟨inner, rfl⟩ := ho
      rw [Condition.term_openParen] at h
      obtain ⟨between, hr, hclose⟩ := bind_eq_ok_iff.mp h
      obtain ⟨used, rfl, hbetween⟩ := derives_of_expression ih hr
      split at hclose
      · rename_i rest hrest
        obtain rfl := Except.ok.inj hclose
        exact ⟨.openParen :: (used ++ [.closeParen]), by simp [hrest], .group hbetween⟩
      · cases hclose
    · rw [Condition.term_eq_comparison (not_exists.mp ho)] at h
      exact derives_of_comparison h

/-! ## Rows of tokens and texts -/

/-- The limits on parentheses and on levels. -/
def WithinLimits (tokens : List Token) (condition : Condition) : Prop :=
  nesting 0 tokens ≤ maxDepth ∧ condition.depth ≤ maxDepth

instance (tokens : List Token) (condition : Condition) :
    Decidable (WithinLimits tokens condition) :=
  inferInstanceAs (Decidable (_ ∧ _))

/-- A row of tokens that is an expression as a whole is read, unless a limit is exceeded. -/
theorem ofTokens_of_derives {tokens : List Token} {condition : Condition}
    (h : Derives .expression tokens condition) :
    Condition.ofTokens tokens =
      if WithinLimits tokens condition then .ok condition else .error .tooDeep := by
  have read := read_append h maxDepth []
  rw [List.append_nil, Phrase.read] at read
  rw [Condition.ofTokens]
  by_cases hlimits : WithinLimits tokens condition
  · rw [read.trans (if_pos hlimits), if_pos hlimits, Phrase.resume, chain_stop _ (by simp)]
    rfl
  · rw [read.trans (if_neg hlimits), if_neg hlimits]
    rfl

/-- A row of tokens that is read is an expression as a whole. -/
theorem derives_of_ofTokens {tokens : List Token} {condition : Condition}
    (h : Condition.ofTokens tokens = .ok condition) : Derives .expression tokens condition := by
  unfold Condition.ofTokens at h
  obtain ⟨reading, hr, hend⟩ := bind_eq_ok_iff.mp h
  obtain ⟨used, rfl, hreading⟩ := derives_of_expression (derives_of_term maxDepth) hr
  split at hend
  · rename_i hrest
    obtain rfl := Except.ok.inj hend
    rwa [hrest, List.append_nil]
  · cases hend

theorem ofTokens_eq_ok_iff {tokens : List Token} {condition : Condition} :
    Condition.ofTokens tokens = .ok condition ↔
      Derives .expression tokens condition ∧ WithinLimits tokens condition := by
  constructor
  · intro h
    have derives := derives_of_ofTokens h
    rw [ofTokens_of_derives derives] at h
    by_cases hlimits : WithinLimits tokens condition
    · exact ⟨derives, hlimits⟩
    · rw [if_neg hlimits] at h
      cases h
  · rintro ⟨derives, hlimits⟩
    rw [ofTokens_of_derives derives, if_pos hlimits]

namespace Condition

/-- A text states a condition exactly if the grammar derives the condition from the tokens of the
text and neither limit is exceeded. If only the limits stand in the way, the error says so. -/
theorem parse_eq_ok_iff {text : String} {tokens : List Token} (h : Token.scan text = .ok tokens)
    (condition : Condition) :
    (parse text = .ok condition ↔
      Derives .expression tokens condition ∧ WithinLimits tokens condition) ∧
    (Derives .expression tokens condition → ¬WithinLimits tokens condition →
      parse text = .error .tooDeep) := by
  have hparse : parse text = ofTokens tokens := by
    rw [parse, h]
    rfl
  rw [hparse]
  constructor
  · exact ofTokens_eq_ok_iff
  · intro derives hlimits
    rw [ofTokens_of_derives derives]
    exact if_neg hlimits

/-- Two joins in parentheses are read, and one pair of parentheses too many is reported. -/
theorem parse_eq_ok_iff_nested :
    Token.scan "a = 1 OR (b = 'x' AND c < d)" = .ok [.word "a", .comparator "=",
      .number (.ofInt 1), .connective .or, .openParen, .word "b", .comparator "=", .quoted "x",
      .connective .and, .word "c", .comparator "<", .word "d", .closeParen] ∧
    parse "a = 1 OR (b = 'x' AND c < d)" = .ok (.join .or
      (.compare ⟨"a", .equal, .number (.ofInt 1)⟩)
      (.join .and (.compare ⟨"b", .equal, .text "x"⟩) (.compare ⟨"c", .less, .text "d"⟩))) ∧
    parse (String.ofList (List.replicate (maxDepth + 1) '(' ++ ['a', '>', 'b'] ++
      List.replicate (maxDepth + 1) ')')) = .error .tooDeep := by
  have hscan : Token.scan "a = 1 OR (b = 'x' AND c < d)" = .ok [.word "a", .comparator "=",
      .number (.ofInt 1), .connective .or, .openParen, .word "b", .comparator "=", .quoted "x",
      .connective .and, .word "c", .comparator "<", .word "d", .closeParen] := by decide +kernel
  have hderives := Derives.join .or (.single (.number "a" "=" (.ofInt 1)))
    (.group (.join .and (.single (.quoted "b" "=" "x")) (.word "c" "<" "d")))
  have hcut : Token.cut (String.ofList (List.replicate (maxDepth + 1) '(' ++ ['a', '>', 'b'] ++
      List.replicate (maxDepth + 1) ')')).toList = List.replicate (maxDepth + 1) .openParen ++
        [.word "a", .comparator ">", .word "b"] ++ List.replicate (maxDepth + 1) .closeParen := by
    rw [String.toList_ofList]
    decide +kernel
  refine ⟨hscan, ((parse_eq_ok_iff hscan _).1.mpr ⟨hderives, by decide +kernel⟩),
    (parse_eq_ok_iff (Token.scan_eq_ok_iff.mpr ⟨by simp, hcut⟩) _).2
      (derives_nested (.single (.word "a" ">" "b")) _) ?_⟩
  decide +kernel

end Condition

end Eligibility
