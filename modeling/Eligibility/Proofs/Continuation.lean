import Eligibility.Proofs.Cursor

/-!
# What errors say about the end of a text

A row of tokens that is no rule may still begin one. The reader of conditions fails where the
cursor stops, and for the reason that stands there (`Cursor.stopsWith_of_ofTokens`), except that
it may reach a limit before. So its errors tell what can be continued from what cannot
(`Condition.ofTokens_error_continuation`) : only at an unexpected end, or where the end of the
tokens leaves a parenthesis open, can more tokens make a rule of them.
-/

namespace Eligibility

variable {tokens rest left : List Token}

namespace Cursor

/-! ## Faults -/

/-- Why the rule cannot go on, before the tokens that are left. At the end of a rule nothing is
wrong. -/
def fault? (cursor : Cursor) (left : List Token) : Option ParseError :=
  match cursor.slot, left with
  | .field, [] | .comparator _, [] | .literal _ _, [] => some .unexpectedEnd
  | .field, found :: _ => some (.expectedField found)
  | .comparator field, found :: _ => some (.expectedComparator field found)
  | .literal field symbol, found :: _ => some (.expectedLiteral field symbol found)
  | .more, left =>
    if 0 < cursor.opened then some .unclosedParenthesis
    else if left = [] then none else some (.trailing left)

/-- What is wrong at the place where no more tokens can be taken. -/
def report? (cursor : Cursor) (tokens : List Token) : Option ParseError :=
  (cursor.stop tokens).1.fault? (cursor.stop tokens).2

variable {cursor next : Cursor} {token : Token} {e : ParseError}

/-- Something is missing at the end of the tokens, or a token may not stand where it does, or a
group stays open. -/
theorem fault?_cases (h : cursor.fault? left = some e) :
    (e = .unexpectedEnd ∧ left = []) ∨
      (e.isMalformed = true ∧ left ≠ []) ∨ (e = .unclosedParenthesis ∧ 0 < cursor.opened) := by
  obtain ⟨opened, slot⟩ := cursor
  cases slot with
  | more =>
    by_cases hopened : 0 < opened
    · obtain rfl : ParseError.unclosedParenthesis = e := by simpa [fault?, hopened] using h
      exact .inr (.inr ⟨rfl, hopened⟩)
    · by_cases hleft : left = []
      · simp [fault?, hopened, hleft] at h
      · obtain rfl : ParseError.trailing left = e := by simpa [fault?, hopened, hleft] using h
        exact .inr (.inl ⟨rfl, hleft⟩)
  | _ =>
    cases left with
    | nil =>
      obtain rfl := Option.some.inj h
      exact .inl ⟨rfl, rfl⟩
    | cons found rest =>
      obtain rfl := Option.some.inj h
      exact .inr (.inl ⟨rfl, by simp⟩)

/-- At the end of a rule there is no fault. -/
theorem report?_of_isRule (h : IsRule tokens) : start.report? tokens = none := by
  rw [report?, stop_of_isRule h]
  rfl

/-! ## Where the reader fails -/

/-- In reading the tokens a group is opened, an expression is read in it, and `left` stands where
the group should be closed. -/
def LeavesOpen (tokens left : List Token) : Prop :=
  ∃ before inner room reading, tokens = before ++ .openParen :: inner ∧
    Condition.expression room inner = .ok reading ∧ reading.rest = left ∧
      ∀ rest, left ≠ .closeParen :: rest

/-- The cursor stops where the reader fails, and for the same reason. -/
structure StopsWith (cursor : Cursor) (tokens : List Token) (e : ParseError) : Prop where
  report : cursor.report? tokens = some e
  leavesOpen : e = .unclosedParenthesis → LeavesOpen tokens (cursor.stop tokens).2

/-- What stops the cursor after some tokens stops it before them. -/
theorem StopsWith.of_append {used : List Token} (h : next.StopsWith rest e)
    (hstop : cursor.stop (used ++ rest) = next.stop rest) :
    cursor.StopsWith (used ++ rest) e where
  report := by
    rw [report?, hstop]
    exact h.report
  leavesOpen he := by
    obtain ⟨before, inner, room, reading, hrest, hopen⟩ := h.leavesOpen he
    rw [hstop]
    exact ⟨used ++ before, inner, room, reading, by rw [hrest, List.append_assoc], hopen⟩

theorem StopsWith.cons (h : next.StopsWith rest e) (hnext : cursor.next? token = some next) :
    cursor.StopsWith (token :: rest) e := by
  have hstop : cursor.stop ([token] ++ rest) = next.stop rest := stop_cons_of_some hnext
  exact h.of_append hstop

theorem stopsWith_of_none (hnext : cursor.next? token = none)
    (hfault : cursor.fault? (token :: rest) = some e) (he : e ≠ .unclosedParenthesis) :
    cursor.StopsWith (token :: rest) e where
  report := by
    rw [report?, stop_cons_of_none hnext]
    exact hfault
  leavesOpen h := absurd h he

theorem stopsWith_nil (hfault : cursor.fault? [] = some e) (he : e ≠ .unclosedParenthesis) :
    cursor.StopsWith [] e :=
  ⟨hfault, fun h => absurd h he⟩

/-- Where a comparison cannot be read, the cursor stops for the same reason. -/
theorem stopsWith_of_comparison (h : Condition.comparison tokens = .error e)
    (hopen : ∀ inner, tokens ≠ .openParen :: inner) (opened : Nat) :
    StopsWith ⟨opened, .field⟩ tokens e := by
  unfold Condition.comparison at h
  split at h
  · rename_i field symbol token rest
    split at h
    · cases h
    · rename_i hliteral
      obtain rfl := Except.error.inj h
      have hnone : next? ⟨opened, .literal field symbol⟩ token = none := by
        rw [next?, hliteral, Option.map_none]
      exact ((stopsWith_of_none hnone rfl (by simp)).cons rfl).cons rfl
  · obtain rfl := Except.error.inj h
    exact stopsWith_nil rfl (by simp)
  · obtain rfl := Except.error.inj h
    exact (stopsWith_nil rfl (by simp)).cons rfl
  · obtain rfl := Except.error.inj h
    exact ((stopsWith_nil rfl (by simp)).cons rfl).cons rfl
  · rename_i field found rest hlonger hsymbol
    obtain rfl := Except.error.inj h
    have hnone : next? ⟨opened, .comparator field⟩ found = none := by
      cases found with
      | comparator symbol =>
        cases rest with
        | nil => exact (hsymbol symbol rfl rfl).elim
        | cons token rest => exact (hlonger symbol token rest rfl rfl).elim
      | _ => rfl
    exact (stopsWith_of_none hnone rfl (by simp)).cons rfl
  · rename_i found rest _ hend _ hmore
    obtain rfl := Except.error.inj h
    have hnone : next? ⟨opened, .field⟩ found = none := by
      cases found with
      | openParen => exact absurd rfl (hopen rest)
      | word field =>
        cases rest with
        | nil => exact (hend field rfl rfl).elim
        | cons token rest => exact (hmore field token rest rfl rfl).elim
      | _ => rfl
    exact stopsWith_of_none hnone rfl (by simp)

/-- The reader joins terms as long as connectives follow. -/
theorem rest_of_chain {term : List Token → Except ParseError Reading} {left reading : Reading}
    (h : Condition.chain term left = .ok reading) :
    ∀ c rest, reading.rest ≠ .connective c :: rest := by
  fun_induction Condition.chain term left with
  | case1 left connective rest hrest ih =>
    obtain ⟨right, -, h⟩ := bind_eq_ok_iff.mp h
    split at h
    · exact ih right ‹_› h
    · cases h
  | case2 left hrest =>
    obtain rfl := Except.ok.inj h
    exact hrest

theorem stopsWith_of_chain {term : List Token → Except ParseError Reading}
    (hok : ∀ tokens reading, term tokens = .ok reading → reading.IsDerived .term tokens)
    (herror : ∀ tokens e, term tokens = .error e → e ≠ .tooDeep →
      ∀ opened, StopsWith ⟨opened, .field⟩ tokens e)
    {left : Reading} (h : Condition.chain term left = .error e) (he : e ≠ .tooDeep)
    (opened : Nat) : StopsWith ⟨opened, .more⟩ left.rest e := by
  fun_induction Condition.chain term left with
  | case1 left connective rest hrest ih =>
    rw [hrest]
    refine StopsWith.cons ?_ rfl
    rcases bind_eq_error_iff.mp h with hterm | ⟨right, hright, hchain⟩
    · exact herror rest e hterm he opened
    · obtain ⟨used, rfl, hused⟩ := hok rest right hright
      split at hchain
      · rename_i hdepth
        exact (ih right hdepth hchain).of_append (stop_phrase hused _ _)
      · exact absurd (Except.error.inj hchain).symm he
  | case2 left hrest => cases h

theorem stopsWith_of_expression {room : Nat}
    (herror : ∀ tokens e, Condition.term room tokens = .error e → e ≠ .tooDeep →
      ∀ opened, StopsWith ⟨opened, .field⟩ tokens e)
    (h : Condition.expression room tokens = .error e) (he : e ≠ .tooDeep) (opened : Nat) :
    StopsWith ⟨opened, .field⟩ tokens e := by
  rcases bind_eq_error_iff.mp h with hterm | ⟨reading, hreading, hchain⟩
  · exact herror tokens e hterm he opened
  · obtain ⟨used, rfl, hused⟩ := derives_of_term room tokens reading hreading
    exact (stopsWith_of_chain (derives_of_term room) herror hchain he opened).of_append
      (stop_phrase hused _ _)

/-- Where an expression has been read, the cursor has come to its end, before a token that goes
on with it no more. -/
theorem stop_of_expression {room : Nat} {reading : Reading}
    (h : Condition.expression room tokens = .ok reading) (opened : Nat) :
    stop ⟨opened, .field⟩ tokens = stop ⟨opened, .more⟩ reading.rest ∧
      ∀ c rest, reading.rest ≠ .connective c :: rest := by
  obtain ⟨used, rfl, hused⟩ := derives_of_expression (derives_of_term room) h
  obtain ⟨left, -, hchain⟩ := bind_eq_ok_iff.mp h
  exact ⟨stop_phrase hused opened reading.rest, rest_of_chain hchain⟩

/-- The cursor stays at the end of an expression before what neither goes on with it nor closes
the group around it. -/
theorem stop_more (opened : Nat) (hconnective : ∀ c rest, left ≠ .connective c :: rest)
    (hclose : 0 < opened → ∀ rest, left ≠ .closeParen :: rest) :
    stop ⟨opened, .more⟩ left = (⟨opened, .more⟩, left) := by
  cases left with
  | nil => rfl
  | cons token rest =>
    refine stop_cons_of_none ?_
    cases token with
    | connective c => exact absurd rfl (hconnective c rest)
    | closeParen =>
      cases opened with
      | zero => rfl
      | succ opened => exact absurd rfl (hclose opened.succ_pos rest)
    | _ => rfl

/-- Where a term cannot be read, the cursor stops for the same reason, however many parentheses
are open around the term. -/
theorem stopsWith_of_term : ∀ (room : Nat) (tokens : List Token) (e : ParseError),
    Condition.term room tokens = .error e → e ≠ .tooDeep →
      ∀ opened, StopsWith ⟨opened, .field⟩ tokens e := by
  intro room
  induction room with
  | zero =>
    intro tokens e h he opened
    unfold Condition.term at h
    split at h
    · exact absurd (Except.error.inj h).symm he
    · rename_i hopen
      exact stopsWith_of_comparison h hopen opened
  | succ room ih =>
    intro tokens e h he opened
    by_cases hopen : ∃ inner, tokens = .openParen :: inner
    · obtain ⟨inner, rfl⟩ := hopen
      rw [Condition.term_openParen] at h
      rcases bind_eq_error_iff.mp h with hinner | ⟨reading, hreading, hend⟩
      · exact (stopsWith_of_expression ih hinner he (opened + 1)).cons rfl
      · obtain ⟨hstop, hconnective⟩ := stop_of_expression hreading (opened + 1)
        split at hend
        · cases hend
        · rename_i hclose
          obtain rfl := Except.error.inj hend
          -- the cursor stops behind the expression, with the group of this term still open
          have hleft : stop ⟨opened, .field⟩ (.openParen :: inner) =
              (⟨opened + 1, .more⟩, reading.rest) :=
            (stop_cons_of_some rfl).trans
              (hstop.trans (stop_more _ hconnective fun _ => hclose))
          refine ⟨by rw [report?, hleft]; rfl, fun _ => ?_⟩
          rw [hleft]
          exact ⟨[], inner, room, reading, rfl, hreading, rfl, hclose⟩
    · have hopen := not_exists.mp hopen
      rw [Condition.term_eq_comparison hopen] at h
      exact stopsWith_of_comparison h hopen opened

/-- Unless the reader reaches a limit, it fails where the cursor stops, and for the reason that
stands there. -/
theorem stopsWith_of_ofTokens (h : Condition.ofTokens tokens = .error e) (he : e ≠ .tooDeep) :
    start.StopsWith tokens e := by
  rcases bind_eq_error_iff.mp h with hexpression | ⟨reading, hreading, hend⟩
  · exact stopsWith_of_expression (stopsWith_of_term maxDepth) hexpression he 0
  · obtain ⟨hstop, hconnective⟩ := stop_of_expression hreading 0
    split at hend
    · cases hend
    · rename_i hrest
      obtain rfl := Except.error.inj hend
      have hleft : start.stop tokens = (⟨0, .more⟩, reading.rest) :=
        hstop.trans (stop_more 0 hconnective fun h => absurd h (Nat.lt_irrefl 0))
      refine ⟨?_, fun h => nomatch h⟩
      rw [report?, hleft]
      simpa [fault?] using hrest

end Cursor

namespace Condition

/-- Errors tell what is incomplete from what is wrong. Unless a limit is reached, reading fails
where the cursor stops :

* at an unexpected end the tokens are no rule but begin one;
* a token that may not stand where it does is not mended by any continuation;
* where a parenthesis is not closed, more have been opened than closed among the tokens taken, and
  the tokens begin a rule exactly if all of them have been taken.

So what begins a rule is read, or ends too early, or leaves a parenthesis open. -/
theorem ofTokens_error_continuation (tokens : List Token) :
    (∀ e, ofTokens tokens = .error e → e ≠ .tooDeep → Cursor.start.report? tokens = some e) ∧
    (ofTokens tokens = .error .unexpectedEnd → ¬IsRule tokens ∧ BeginsRule tokens) ∧
    (∀ e, ofTokens tokens = .error e → e.isMalformed = true →
      ∀ more, ¬IsRule (tokens ++ more)) ∧
    (ofTokens tokens = .error .unclosedParenthesis → ∃ taken left, tokens = taken ++ left ∧
      (Cursor.start.stop tokens).2 = left ∧ Cursor.LeavesOpen tokens left ∧
      taken.count .closeParen < taken.count .openParen ∧ (BeginsRule tokens ↔ left = [])) ∧
    (∀ more, IsRule (tokens ++ more) → ofTokens tokens ≠ .error .tooDeep →
      (∃ condition, ofTokens tokens = .ok condition) ∨
        ofTokens tokens = .error .unexpectedEnd ∨
        ofTokens tokens = .error .unclosedParenthesis) := by
  refine ⟨fun e h he => (Cursor.stopsWith_of_ofTokens h he).report, ?_, ?_, ?_, ?_⟩
  · intro h
    have hstops := Cursor.stopsWith_of_ofTokens h (by simp)
    refine ⟨fun hrule => ?_, ?_⟩
    · cases (Cursor.report?_of_isRule hrule).symm.trans hstops.report
    · rcases Cursor.fault?_cases hstops.report with ⟨-, hleft⟩ | ⟨he, -⟩ | ⟨he, -⟩
      · exact Cursor.beginsRule_iff.mpr hleft
      · cases he
      · cases he
  · intro e h he more hrule
    have hstops := Cursor.stopsWith_of_ofTokens h (by rintro rfl; cases he)
    rcases Cursor.fault?_cases hstops.report with ⟨rfl, -⟩ | ⟨-, hleft⟩ | ⟨rfl, -⟩
    · cases he
    · exact hleft (Cursor.beginsRule_iff.mp ⟨more, hrule⟩)
    · cases he
  · intro h
    have hstops := Cursor.stopsWith_of_ofTokens h (by simp)
    obtain ⟨taken, htokens, -, hcount⟩ := Cursor.isAfter_stop tokens
    refine ⟨taken, _, htokens, rfl, hstops.leavesOpen rfl, ?_, Cursor.beginsRule_iff⟩
    rcases Cursor.fault?_cases hstops.report with ⟨he, -⟩ | ⟨he, -⟩ | ⟨-, hopened⟩
    · cases he
    · cases he
    · omega
  · intro more hrule hlimit
    cases h : ofTokens tokens with
    | ok condition => exact .inl ⟨condition, rfl⟩
    | error e =>
      have hstops := Cursor.stopsWith_of_ofTokens h fun he => hlimit (he ▸ h)
      rcases Cursor.fault?_cases hstops.report with ⟨rfl, -⟩ | ⟨-, hleft⟩ | ⟨rfl, -⟩
      · exact .inr (.inl rfl)
      · exact absurd (Cursor.beginsRule_iff.mp ⟨more, hrule⟩) hleft
      · exact .inr (.inr rfl)

/-- A rule breaks off in a group after a connective, and another one in the place of a literal; a
group is left open at the end, and before a word that may not stand there. -/
theorem ofTokens_error_continuation_open :
    (ofTokens [.openParen, .word "a", .comparator ">", .word "b", .connective .and] =
        .error .unexpectedEnd ∧
      BeginsRule [.openParen, .word "a", .comparator ">", .word "b", .connective .and]) ∧
    (ofTokens [.word "a", .comparator ">", .connective .and] =
        .error (.expectedLiteral "a" ">" (.connective .and)) ∧
      ¬IsRule [.word "a", .comparator ">", .connective .and, .word "b"]) ∧
    (ofTokens [.openParen, .word "a", .comparator ">", .word "b"] = .error .unclosedParenthesis ∧
      BeginsRule [.openParen, .word "a", .comparator ">", .word "b"]) ∧
    (ofTokens [.openParen, .word "a", .comparator ">", .word "b", .word "c"] =
        .error .unclosedParenthesis ∧
      ¬BeginsRule [.openParen, .word "a", .comparator ">", .word "b", .word "c"]) := by
  obtain ⟨-, hend, -⟩ := ofTokens_error_continuation
    [.openParen, .word "a", .comparator ">", .word "b", .connective .and]
  obtain ⟨-, -, hmalformed, -⟩ := ofTokens_error_continuation
    [.word "a", .comparator ">", .connective .and]
  obtain ⟨-, -, -, hopen, -⟩ := ofTokens_error_continuation
    [.openParen, .word "a", .comparator ">", .word "b"]
  obtain ⟨-, -, -, hwrong, -⟩ := ofTokens_error_continuation
    [.openParen, .word "a", .comparator ">", .word "b", .word "c"]
  refine ⟨⟨by decide +kernel, (hend (by decide +kernel)).2⟩,
    ⟨by decide +kernel, hmalformed (.expectedLiteral "a" ">" (.connective .and))
      (by decide +kernel) rfl [.word "b"]⟩,
    ⟨by decide +kernel, ?_⟩, ⟨by decide +kernel, ?_⟩⟩
  · obtain ⟨taken, left, -, hleft, -, -, hbegins⟩ := hopen (by decide +kernel)
    exact hbegins.mpr hleft.symm
  · obtain ⟨taken, left, -, hleft, -, -, hbegins⟩ := hwrong (by decide +kernel)
    intro h
    rw [hbegins.mp h] at hleft
    cases hleft

end Condition

end Eligibility
