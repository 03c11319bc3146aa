import Eligibility.Proofs.Continuation
import Mathlib.Logic.Relation

/-!
# Reading one step at a time

The reader of conditions calls itself, and hands on the tokens that are left. Here it is a machine
that moves along the tokens : it counts how many it has taken and how many parentheses are open
(`Machine.Place`), and what waits for the phrase at hand stands on a stack (`Machine.Frame`).

Each move

* leaves less to do (`Machine.Moves.potential_lt`), so that a run comes to an end;
* keeps the counts right, those of tokens and parentheses as well as the levels of what has been
  read (`Machine.IsSound.moves`);
* changes nothing about what the run comes to (`Machine.Moves.outcome_eq`), which is what the reader
  returns for the tokens that are left.

Main statement :

* `Machine.call_keeps_place` : a call of the reader stays within the tokens and within the limit on
  parentheses, ends, and closes what it has opened. What it has read depends on no tokens but those
  that it has taken, and the one after them.
-/

namespace Eligibility

/-! ## Which tokens count -/

theorem Derives.ne_nil {phrase : Phrase} {tokens : List Token} {condition : Condition}
    (h : Derives phrase tokens condition) : tokens ≠ [] := by
  induction h with
  | single _ ih => exact ih
  | _ => simp

/-- What has been read is over : the reader does not go on with it, nor would it with other tokens
behind the next one. -/
theorem Phrase.resume_eq_ok {room : Nat} {phrase : Phrase} {reading : Reading}
    (h : phrase.resume room ⟨reading.condition, reading.condition.depth, reading.rest⟩ =
      .ok reading) {rest : List Token} (hrest : rest.head? = reading.rest.head?) :
    phrase.resume room ⟨reading.condition, reading.condition.depth, rest⟩ =
      .ok ⟨reading.condition, reading.condition.depth, rest⟩ := by
  cases phrase with
  | term => rfl
  | expression =>
    refine Condition.chain_stop _ fun c more hmore => ?_
    obtain ⟨more', hmore'⟩ : ∃ more', reading.rest = .connective c :: more' := by
      rw [← List.head?_eq_some_iff, ← hrest]
      exact congrArg List.head? hmore
    exact Cursor.rest_of_chain h c more' hmore'

/-- A phrase takes one token at least. The same tokens are read alike before all that begins with
the same token, or is empty as well. -/
theorem Phrase.read_local {room : Nat} {phrase : Phrase} {tokens : List Token} {reading : Reading}
    (h : phrase.read room tokens = .ok reading) :
    ∃ used, tokens = used ++ reading.rest ∧ used ≠ [] ∧
      ∀ rest, rest.head? = reading.rest.head? →
        phrase.read room (used ++ rest) = .ok { reading with rest } := by
  have hderived : reading.IsDerived phrase tokens := by
    cases phrase with
    | expression => exact derives_of_expression (derives_of_term room) h
    | term => exact derives_of_term room tokens reading h
  obtain ⟨used, rfl, hused⟩ := hderived
  refine ⟨used, rfl, hused.ne_nil, fun rest hrest => ?_⟩
  rw [read_append hused] at h ⊢
  split at h
  · rename_i hlimits
    rw [if_pos hlimits, Phrase.resume_eq_ok h hrest]
    have hself := Except.ok.inj ((Phrase.resume_eq_ok h rfl).symm.trans h)
    have hdepth : reading.condition.depth = reading.depth := congrArg Reading.depth hself
    rw [hdepth]
  · cases h

namespace Machine

/-! ## The machine -/

/-- Where a token comes next : how many have been taken, and how many parentheses are open. -/
structure Place where
  position : Nat
  nesting : Nat

/-- Behind the next token. -/
def Place.advance (place : Place) : Place :=
  { place with position := place.position + 1 }

/-- What waits for a phrase. -/
inductive Frame where
  /-- An expression waits for its first term. -/
  | first
  /-- An expression waits for the term after a connective. -/
  | next (connective : Connective) (left : Condition) (depth : Nat)
  /-- A group waits for the expression in it. -/
  | group
  deriving DecidableEq

/-- What is to be done. -/
inductive Task where
  | read (phrase : Phrase)
  /-- A field has been taken, and a comparator comes next. -/
  | comparator (field : String)
  | literal (field symbol : String)
  /-- An expression has been read up to here, and goes on if there is a connective. -/
  | extend (condition : Condition) (depth : Nat)
  | done (condition : Condition) (depth : Nat)
  | fail (error : ParseError)

structure State where
  place : Place
  task : Task
  /-- What waits, the innermost first. -/
  frames : List Frame

/-- The reader is called at a place. -/
def call (phrase : Phrase) (start : Place) : State :=
  ⟨start, .read phrase, []⟩

namespace Task

/-- What a token in the place of a field leads to. -/
def ofField : Token → Task
  | .word field => comparator field
  | found => fail (.expectedField found)

/-- What a token in the place of a comparator leads to. -/
def ofComparator (field : String) : Token → Task
  | .comparator symbol => literal field symbol
  | found => fail (.expectedComparator field found)

/-- What a token in the place of a literal leads to. -/
def ofLiteral (field symbol : String) (token : Token) : Task :=
  match token.literal? with
  | some value => done (.compare ⟨field, .ofSymbol symbol, value⟩) 1
  | none => fail (.expectedLiteral field symbol token)

end Task

/-- Takes the next token, whatever it is, and goes on as `use` says. -/
def take (tokens : List Token) (place : Place) (frames : List Frame) (use : Token → Task) : State :=
  match tokens[place.position]? with
  | some token => ⟨place.advance, use token, frames⟩
  | none => ⟨place, .fail .unexpectedEnd, frames⟩

/-- The moves of the machine. -/
inductive Moves (tokens : List Token) : State → State → Prop
  | expression {place : Place} {frames : List Frame} :
    Moves tokens ⟨place, .read .expression, frames⟩ ⟨place, .read .term, .first :: frames⟩
  | openParen {place : Place} {frames : List Frame} :
    tokens[place.position]? = some .openParen → place.nesting < maxDepth →
      Moves tokens ⟨place, .read .term, frames⟩
        ⟨⟨place.position + 1, place.nesting + 1⟩, .read .expression, .group :: frames⟩
  /-- As many parentheses are open as may be. -/
  | tooNested {place : Place} {frames : List Frame} :
    tokens[place.position]? = some .openParen → maxDepth ≤ place.nesting →
      Moves tokens ⟨place, .read .term, frames⟩ ⟨place, .fail .tooDeep, frames⟩
  | field {place : Place} {frames : List Frame} :
    tokens[place.position]? ≠ some .openParen →
      Moves tokens ⟨place, .read .term, frames⟩ (take tokens place frames .ofField)
  | comparator {place : Place} {frames : List Frame} (field : String) :
    Moves tokens ⟨place, .comparator field, frames⟩ (take tokens place frames (.ofComparator field))
  | literal {place : Place} {frames : List Frame} (field symbol : String) :
    Moves tokens ⟨place, .literal field symbol, frames⟩
      (take tokens place frames (.ofLiteral field symbol))
  | connective {place : Place} {frames : List Frame} {c : Connective} {condition : Condition}
      {depth : Nat} :
    tokens[place.position]? = some (.connective c) →
      Moves tokens ⟨place, .extend condition depth, frames⟩
        ⟨place.advance, .read .term, .next c condition depth :: frames⟩
  /-- An expression ends where no connective follows. -/
  | ended {place : Place} {frames : List Frame} {condition : Condition} {depth : Nat} :
    (∀ c, tokens[place.position]? ≠ some (.connective c)) →
      Moves tokens ⟨place, .extend condition depth, frames⟩ ⟨place, .done condition depth, frames⟩
  | first {place : Place} {frames : List Frame} {condition : Condition} {depth : Nat} :
    Moves tokens ⟨place, .done condition depth, .first :: frames⟩
      ⟨place, .extend condition depth, frames⟩
  | joined {place : Place} {frames : List Frame} {c : Connective} {left right : Condition}
      {depth depth' : Nat} :
    1 + max depth depth' ≤ maxDepth →
      Moves tokens ⟨place, .done right depth', .next c left depth :: frames⟩
        ⟨place, .extend (.join c left right) (1 + max depth depth'), frames⟩
  /-- The join would have too many levels. -/
  | tooLong {place : Place} {frames : List Frame} {c : Connective} {left right : Condition}
      {depth depth' : Nat} :
    maxDepth < 1 + max depth depth' →
      Moves tokens ⟨place, .done right depth', .next c left depth :: frames⟩
        ⟨place, .fail .tooDeep, frames⟩
  | closeParen {place : Place} {frames : List Frame} {condition : Condition} {depth : Nat} :
    tokens[place.position]? = some .closeParen →
      Moves tokens ⟨place, .done condition depth, .group :: frames⟩
        ⟨⟨place.position + 1, place.nesting - 1⟩, .done condition depth, frames⟩
  | unclosed {place : Place} {frames : List Frame} {condition : Condition} {depth : Nat} :
    tokens[place.position]? ≠ some .closeParen →
      Moves tokens ⟨place, .done condition depth, .group :: frames⟩
        ⟨⟨place.position, place.nesting - 1⟩, .fail .unclosedParenthesis, frames⟩

/-- Any number of moves lead from one state to the other. -/
abbrev Reaches (tokens : List Token) : State → State → Prop :=
  Relation.ReflTransGen (Moves tokens)

/-- What a run has come to, if it is at its end. -/
def State.result? (tokens : List Token) : State → Option (Except ParseError Reading)
  | ⟨place, .done condition depth, []⟩ => some (.ok ⟨condition, depth, tokens.drop place.position⟩)
  | ⟨_, .fail e, _⟩ => some (.error e)
  | _ => none

variable {tokens : List Token} {start place : Place} {task : Task} {frames : List Frame}
  {s s' s'' last : State} {use : Token → Task}

theorem Moves.unique (h : Moves tokens s s') (h' : Moves tokens s s'') : s' = s'' := by
  cases h <;> cases h' <;> simp_all <;> omega

/-- There is a move exactly where a run is not at its end. -/
theorem exists_moves_iff : (∃ s', Moves tokens s s') ↔ s.result? tokens = none := by
  constructor
  · rintro ⟨s', h⟩
    cases h <;> rfl
  · intro h
    obtain ⟨place, task, frames⟩ := s
    cases task with
    | read phrase =>
      cases phrase with
      | expression => exact ⟨_, .expression⟩
      | term =>
        by_cases hopen : tokens[place.position]? = some .openParen
        · rcases Nat.lt_or_ge place.nesting maxDepth with hroom | hroom
          · exact ⟨_, .openParen hopen hroom⟩
          · exact ⟨_, .tooNested hopen hroom⟩
        · exact ⟨_, .field hopen⟩
    | comparator field => exact ⟨_, .comparator field⟩
    | literal field symbol => exact ⟨_, .literal field symbol⟩
    | extend condition depth =>
      by_cases hc : ∃ c, tokens[place.position]? = some (.connective c)
      · obtain ⟨c, hc⟩ := hc
        exact ⟨_, .connective hc⟩
      · exact ⟨_, .ended (not_exists.mp hc)⟩
    | fail e => cases h
    | done condition depth =>
      cases frames with
      | nil => cases h
      | cons frame frames =>
        cases frame with
        | first => exact ⟨_, .first⟩
        | next c left depth' =>
          rcases Nat.lt_or_ge maxDepth (1 + max depth' depth) with hlevels | hlevels
          · exact ⟨_, .tooLong hlevels⟩
          · exact ⟨_, .joined hlevels⟩
        | group =>
          by_cases hclose : tokens[place.position]? = some .closeParen
          · exact ⟨_, .closeParen hclose⟩
          · exact ⟨_, .unclosed hclose⟩

/-! ## How long a run is -/

/-- How many moves there may be before a token is taken or a frame is left. -/
def Task.rank : Task → Nat
  | read .expression => 4
  | read .term | comparator _ | literal _ _ | done _ _ => 1
  | extend _ _ => 2
  | fail _ => 0

/-- No fewer than the moves that are left : six for each token, two for each frame, and those of the
task. -/
def State.potential (tokens : List Token) (s : State) : Nat :=
  6 * (tokens.length - s.place.position) + 2 * s.frames.length + s.task.rank

/-- A token lies ahead. -/
theorem lt_length_of_getElem? {token : Token} (h : tokens[place.position]? = some token) :
    place.position < tokens.length :=
  (List.getElem?_eq_some_iff.mp h).1

theorem potential_take_lt (htask : 0 < task.rank) (huse : ∀ token, (use token).rank ≤ 1) :
    (take tokens place frames use).potential tokens <
      State.potential tokens ⟨place, task, frames⟩ := by
  unfold take
  split
  · rename_i token htoken
    have hlt := lt_length_of_getElem? htoken
    have hrank := huse token
    simp only [State.potential, Place.advance]
    omega
  · simpa only [State.potential, Task.rank, Nat.add_lt_add_iff_left] using htask

theorem Moves.potential_lt (h : Moves tokens s s') : s'.potential tokens < s.potential tokens := by
  cases h with
  | field =>
    refine potential_take_lt Nat.one_pos fun token => ?_
    cases token <;> simp [Task.ofField, Task.rank]
  | comparator =>
    refine potential_take_lt Nat.one_pos fun token => ?_
    cases token <;> simp [Task.ofComparator, Task.rank]
  | literal =>
    refine potential_take_lt Nat.one_pos fun token => ?_
    unfold Task.ofLiteral
    split <;> simp [Task.rank]
  | openParen htoken | connective htoken | closeParen htoken =>
    have hlt := lt_length_of_getElem? htoken
    simp only [State.potential, Task.rank, Place.advance, List.length_cons]
    omega
  | _ =>
    simp only [State.potential, Task.rank, List.length_cons]
    omega

/-- No run goes on for ever. -/
theorem wellFounded_moves (tokens : List Token) :
    WellFounded fun s' s => Moves tokens s s' :=
  Subrelation.wf Moves.potential_lt (measure (State.potential tokens)).wf

/-! ## What a run comes to -/

/-- What the reader returns for a task, before these tokens, with so much room for parentheses. -/
def Task.outcome (room : Nat) (rest : List Token) : Task → Except ParseError Reading
  | read phrase => phrase.read room rest
  | comparator field => Condition.comparison (.word field :: rest)
  | literal field symbol => Condition.comparison (.word field :: .comparator symbol :: rest)
  | extend condition depth => Condition.chain (Condition.term room) ⟨condition, depth, rest⟩
  | done condition depth => .ok ⟨condition, depth, rest⟩
  | fail e => .error e

/-- What the reader makes of a phrase that has been read, in the calls that wait for it. -/
def unwind : (nesting : Nat) → List Frame → Reading → Except ParseError Reading
  | _, [], reading => .ok reading
  | nesting, .first :: frames, reading =>
    Condition.chain (Condition.term (maxDepth - nesting)) reading >>= unwind nesting frames
  | nesting, .next c left depth :: frames, right =>
    if 1 + max depth right.depth ≤ maxDepth then
      Condition.chain (Condition.term (maxDepth - nesting))
        ⟨.join c left right.condition, 1 + max depth right.depth, right.rest⟩ >>=
          unwind nesting frames
    else .error .tooDeep
  | nesting, .group :: frames, reading =>
    match reading.rest with
    | .closeParen :: rest => unwind (nesting - 1) frames { reading with rest }
    | _ => .error .unclosedParenthesis

/-- What the run from a state comes to. -/
def State.outcome (tokens : List Token) (s : State) : Except ParseError Reading :=
  s.task.outcome (maxDepth - s.place.nesting) (tokens.drop s.place.position) >>=
    unwind s.place.nesting s.frames

theorem drop_of_getElem? {token : Token} (h : tokens[place.position]? = some token) :
    tokens.drop place.position = token :: tokens.drop (place.position + 1) := by
  obtain ⟨hlt, rfl⟩ := List.getElem?_eq_some_iff.mp h
  exact List.drop_eq_getElem_cons hlt

/-- Taking a token keeps the outcome if `use` goes on as the reader does. -/
theorem outcome_take
    (hend : ∀ room, task.outcome room [] = .error .unexpectedEnd)
    (huse : ∀ room token rest, tokens[place.position]? = some token →
      task.outcome room (token :: rest) = (use token).outcome room rest) :
    (take tokens place frames use).outcome tokens = State.outcome tokens ⟨place, task, frames⟩ := by
  unfold take
  split
  · rename_i token htoken
    simp only [State.outcome, Place.advance, drop_of_getElem? htoken, huse _ _ _ htoken]
  · rename_i htoken
    have hdrop := List.drop_eq_nil_of_le (List.getElem?_eq_none_iff.mp htoken)
    simp only [State.outcome, hdrop, hend]
    rfl

/-- What is read in a group is read for the calls outside of it, once the group is closed. -/
theorem unwind_group (nesting : Nat) (frames : List Frame) (reading : Reading) :
    unwind (nesting + 1) (.group :: frames) reading =
      (match reading.rest with
        | .closeParen :: rest => .ok { reading with rest }
        | _ => .error .unclosedParenthesis) >>= unwind nesting frames := by
  rw [unwind, Nat.add_sub_cancel]
  split <;> rfl

theorem unwind_group_of_ne (nesting : Nat) (frames : List Frame) {reading : Reading}
    (h : ∀ rest, reading.rest ≠ .closeParen :: rest) :
    unwind nesting (.group :: frames) reading = .error .unclosedParenthesis := by
  rw [unwind]
  split
  · rename_i rest hrest
    exact absurd hrest (h rest)
  · rfl

theorem Moves.outcome_eq (h : Moves tokens s s') : s'.outcome tokens = s.outcome tokens := by
  cases h with
  | expression =>
    simp only [State.outcome, Task.outcome, Phrase.read, Condition.expression, bind_assoc, unwind]
  | @openParen place frames htoken hroom =>
    have hroom : maxDepth - place.nesting = maxDepth - (place.nesting + 1) + 1 := by omega
    simp only [State.outcome, Task.outcome, Phrase.read, drop_of_getElem? htoken, hroom,
      Condition.term_openParen]
    cases Condition.expression (maxDepth - (place.nesting + 1))
        (tokens.drop (place.position + 1)) with
    | error e => rfl
    | ok reading => exact unwind_group place.nesting frames reading
  | @tooNested place frames htoken hroom =>
    have hroom : maxDepth - place.nesting = 0 := by omega
    simp only [State.outcome, Task.outcome, Phrase.read, drop_of_getElem? htoken, hroom,
      Condition.term]
  | field htoken =>
    refine outcome_take (fun room => Condition.term_eq_comparison (by simp))
      fun room token rest hfound => ?_
    have hopen : ∀ inner, token :: rest ≠ .openParen :: inner := by
      intro inner h
      exact htoken (hfound.trans (congrArg some (List.cons.inj h).1))
    rw [Task.outcome, Phrase.read, Condition.term_eq_comparison hopen]
    cases token with
    | openParen => exact absurd rfl (hopen rest)
    | _ => rfl
  | comparator field =>
    refine outcome_take (fun room => rfl) fun room token rest _ => ?_
    cases token <;> rfl
  | literal field symbol =>
    refine outcome_take (fun room => rfl) fun room token rest _ => ?_
    simp only [Task.outcome, Task.ofLiteral, Condition.comparison]
    cases token.literal? <;> rfl
  | connective htoken =>
    simp only [State.outcome, Task.outcome, Phrase.read, drop_of_getElem? htoken,
      Condition.chain_connective, bind_assoc, Place.advance]
    refine congrArg _ (funext fun right => ?_)
    rw [unwind]
    split <;> rfl
  | @ended place frames condition depth htoken =>
    have hstop : ∀ c rest, tokens.drop place.position ≠ .connective c :: rest := by
      intro c rest h
      exact htoken c (List.head?_drop.symm.trans (congrArg List.head? h))
    simp only [State.outcome, Task.outcome]
    rw [Condition.chain_stop _ hstop]
  | first => rfl
  | joined hlevels => exact (if_pos hlevels).symm
  | tooLong hlevels => exact (if_neg (Nat.not_le.mpr hlevels)).symm
  | closeParen htoken =>
    simp only [State.outcome, Task.outcome, drop_of_getElem? htoken]
    rfl
  | @unclosed place frames condition depth htoken =>
    let reading : Reading := ⟨condition, depth, tokens.drop place.position⟩
    have hclose : ∀ rest, reading.rest ≠ .closeParen :: rest := by
      intro rest h
      exact htoken (List.head?_drop.symm.trans (congrArg List.head? h))
    exact (unwind_group_of_ne place.nesting frames hclose).symm

theorem State.outcome_of_result? {result : Except ParseError Reading}
    (h : s.result? tokens = some result) : s.outcome tokens = result := by
  unfold State.result? at h
  split at h
  · exact Option.some.inj h
  · exact Option.some.inj h
  · cases h

/-- Every run comes to its end, and to what the reader returns. -/
theorem exists_reaches_end (tokens : List Token) (s : State) :
    ∃ last, Reaches tokens s last ∧ last.result? tokens = some (s.outcome tokens) := by
  induction s using (wellFounded_moves tokens).induction with
  | _ s ih =>
    cases hresult : s.result? tokens with
    | some result => exact ⟨s, .refl, by rw [hresult, State.outcome_of_result? hresult]⟩
    | none =>
      obtain ⟨s', hmove⟩ := exists_moves_iff.mpr hresult
      obtain ⟨last, hreaches, hlast⟩ := ih s' hmove
      exact ⟨last, .head hmove hreaches, hmove.outcome_eq ▸ hlast⟩

/-- A run goes on to its end from wherever it has come. -/
theorem Reaches.reaches_end {result : Except ParseError Reading} (h : Reaches tokens s s')
    (hlast : Reaches tokens s last) (hresult : last.result? tokens = some result) :
    Reaches tokens s' last := by
  have hunique : Relator.RightUnique (Moves tokens) := fun _ _ _ => Moves.unique
  rcases Relation.ReflTransGen.total_of_right_unique hunique h hlast with hend | hback
  · exact hend
  · rcases Relation.ReflTransGen.cases_head hback with rfl | ⟨next, hmove, -⟩
    · exact .refl
    · have hnone := exists_moves_iff.mp ⟨next, hmove⟩
      rw [hnone] at hresult
      cases hresult

/-! ## What holds all along -/

/-- The depth that is kept with a condition is the number of its levels. -/
def Frame.IsExact : Frame → Prop
  | next _ left depth => depth = left.depth
  | first | group => True

def Task.IsExact : Task → Prop
  | extend condition depth | done condition depth => depth = condition.depth
  | _ => True

/-- The counts are right : no more tokens have been taken than there are; one parenthesis is open
for each group that waits, besides those at the start, and not too many are; each depth is that of
its condition. -/
structure IsSound (tokens : List Token) (start : Place) (s : State) : Prop where
  position_le : s.place.position ≤ tokens.length
  nesting_eq : s.place.nesting = start.nesting + s.frames.count .group
  nesting_le : s.place.nesting ≤ maxDepth
  frames : ∀ frame ∈ s.frames, frame.IsExact
  task : s.task.IsExact

theorem isSound_call {phrase : Phrase} (hposition : start.position ≤ tokens.length)
    (hnesting : start.nesting ≤ maxDepth) : IsSound tokens start (call phrase start) :=
  ⟨hposition, rfl, hnesting, List.forall_mem_nil _, trivial⟩

theorem IsSound.take (h : IsSound tokens start ⟨place, task, frames⟩)
    (huse : ∀ token, (use token).IsExact) :
    IsSound tokens start (take tokens place frames use) := by
  unfold Machine.take
  split
  · rename_i token htoken
    exact ⟨lt_length_of_getElem? htoken, h.nesting_eq, h.nesting_le, h.frames, huse token⟩
  · exact ⟨h.position_le, h.nesting_eq, h.nesting_le, h.frames, trivial⟩

/-- Outside of a group one parenthesis less is open. -/
theorem IsSound.nesting_sub_one (h : IsSound tokens start ⟨place, task, .group :: frames⟩) :
    place.nesting - 1 = start.nesting + frames.count .group ∧ place.nesting - 1 ≤ maxDepth := by
  have hcount : place.nesting = start.nesting + (frames.count .group + 1) := by
    simpa using h.nesting_eq
  have hlimit : place.nesting ≤ maxDepth := h.nesting_le
  omega

theorem IsSound.moves (h : IsSound tokens start s) (hmove : Moves tokens s s') :
    IsSound tokens start s' := by
  have ⟨hposition, hcount, hlimit, hframes, htask⟩ := h
  cases hmove with
  | field =>
    refine h.take fun token => ?_
    cases token <;> trivial
  | comparator =>
    refine h.take fun token => ?_
    cases token <;> trivial
  | literal =>
    refine h.take fun token => ?_
    unfold Task.ofLiteral
    split
    · rfl
    · trivial
  | expression =>
    exact ⟨hposition, by simpa using hcount, hlimit, List.forall_mem_cons.mpr ⟨trivial, hframes⟩,
      trivial⟩
  | openParen htoken hroom =>
    refine ⟨lt_length_of_getElem? htoken, ?_, hroom, List.forall_mem_cons.mpr ⟨trivial, hframes⟩,
      trivial⟩
    rw [List.count_cons_self]
    exact congrArg (· + 1) hcount
  | tooNested => exact ⟨hposition, hcount, hlimit, hframes, trivial⟩
  | connective htoken =>
    exact ⟨lt_length_of_getElem? htoken, by simpa [Place.advance] using hcount, hlimit,
      List.forall_mem_cons.mpr ⟨htask, hframes⟩, trivial⟩
  | ended => exact ⟨hposition, hcount, hlimit, hframes, htask⟩
  | first =>
    exact ⟨hposition, by simpa using hcount, hlimit, (List.forall_mem_cons.mp hframes).2, htask⟩
  | @joined place frames c left right depth depth' =>
    obtain ⟨hleft, hframes⟩ := List.forall_mem_cons.mp hframes
    have hleft : depth = left.depth := hleft
    have hright : depth' = right.depth := htask
    exact ⟨hposition, by simpa using hcount, hlimit, hframes, by rw [hleft, hright]; rfl⟩
  | tooLong =>
    exact ⟨hposition, by simpa using hcount, hlimit, (List.forall_mem_cons.mp hframes).2, trivial⟩
  | closeParen htoken =>
    exact ⟨lt_length_of_getElem? htoken, h.nesting_sub_one.1, h.nesting_sub_one.2,
      (List.forall_mem_cons.mp hframes).2, htask⟩
  | unclosed =>
    exact ⟨hposition, h.nesting_sub_one.1, h.nesting_sub_one.2, (List.forall_mem_cons.mp hframes).2,
      trivial⟩

theorem IsSound.reaches (h : IsSound tokens start s) (hreaches : Reaches tokens s s') :
    IsSound tokens start s' := by
  induction hreaches with
  | refl => exact h
  | tail _ hmove ih => exact ih.moves hmove

/-- A call of the machine comes to what the reader returns for the tokens that are left. -/
theorem outcome_call (tokens : List Token) (phrase : Phrase) (start : Place) :
    (call phrase start).outcome tokens =
      phrase.read (maxDepth - start.nesting) (tokens.drop start.position) :=
  bind_pure _

theorem Reaches.outcome_eq (h : Reaches tokens s s') : s'.outcome tokens = s.outcome tokens := by
  induction h with
  | refl => rfl
  | tail _ hmove ih => exact hmove.outcome_eq.trans ih

/-- Where a call ends well, the reader has read the same phrase, up to the same token. -/
theorem read_of_reaches {phrase : Phrase} {stop : Place} {condition : Condition} {depth : Nat}
    (h : Reaches tokens (call phrase start) ⟨stop, .done condition depth, []⟩) :
    phrase.read (maxDepth - start.nesting) (tokens.drop start.position) =
      .ok ⟨condition, depth, tokens.drop stop.position⟩ := by
  rw [← outcome_call, ← h.outcome_eq]
  rfl

/-- Where the reader reads a phrase, a call ends well, with as many parentheses open as before. -/
theorem reaches_of_read {phrase : Phrase} {condition : Condition} {depth stop : Nat}
    (hposition : start.position ≤ tokens.length) (hnesting : start.nesting ≤ maxDepth)
    (hstop : stop ≤ tokens.length)
    (h : phrase.read (maxDepth - start.nesting) (tokens.drop start.position) =
      .ok ⟨condition, depth, tokens.drop stop⟩) :
    Reaches tokens (call phrase start) ⟨⟨stop, start.nesting⟩, .done condition depth, []⟩ := by
  obtain ⟨last, hreaches, hlast⟩ := exists_reaches_end tokens (call phrase start)
  have hsound := (isSound_call hposition hnesting).reaches hreaches
  rw [outcome_call, h] at hlast
  unfold State.result? at hlast
  split at hlast
  · rename_i place condition' depth'
    obtain ⟨rfl, rfl, hrest⟩ := Reading.mk.inj (Except.ok.inj (Option.some.inj hlast))
    have hlength := congrArg List.length hrest
    have hplace : place.position ≤ tokens.length := hsound.position_le
    rw [List.length_drop, List.length_drop] at hlength
    obtain rfl : place.position = stop := by omega
    have hplace : place = ⟨place.position, start.nesting⟩ := congrArg (Place.mk _) hsound.nesting_eq
    rwa [← hplace]
  · cases hlast
  · cases hlast

/-- Where two rows of tokens agree, the same tokens lie ahead, with what is left after them. -/
theorem drop_eq_append_drop {tokens' used rest : List Token} {first first' : Nat}
    (h : tokens.drop first = used ++ rest)
    (hagree : ∀ i < used.length, tokens'[first' + i]? = tokens[first + i]?) :
    tokens'.drop first' = used ++ tokens'.drop (first' + used.length) := by
  have hused : (tokens'.drop first').take used.length = used := by
    refine List.ext_getElem? fun i => ?_
    by_cases hi : i < used.length
    · rw [List.getElem?_take_of_lt hi, List.getElem?_drop, hagree i hi, ← List.getElem?_drop, h,
        List.getElem?_append_left hi]
    · rw [List.getElem?_eq_none (by simp; omega), List.getElem?_eq_none (by omega)]
  calc
    tokens'.drop first' =
        (tokens'.drop first').take used.length ++ (tokens'.drop first').drop used.length :=
      (List.take_append_drop ..).symm
    _ = used ++ tokens'.drop (first' + used.length) := by rw [hused, List.drop_drop]

/-- Wherever a call of the reader begins, it never moves beyond the last token, nor opens more
parentheses than may be open. It does not go on for ever but comes to an end, which is what the
reader returns for the tokens that are left. If it ends well, it has taken a token at least and has
closed what it has opened, and the depth that it tells is that of the condition. It does the same in
every other row of tokens that agrees with this one in the tokens taken and in the next one, if
there is any. -/
theorem call_keeps_place (tokens : List Token) (phrase : Phrase) (start : Place)
    (hposition : start.position ≤ tokens.length) (hnesting : start.nesting ≤ maxDepth) :
    (∀ s, Reaches tokens (call phrase start) s →
      s.place.position ≤ tokens.length ∧ s.place.nesting ≤ maxDepth) ∧
    Acc (fun s' s => Moves tokens s s') (call phrase start) ∧
    (∃ last, (∀ s, ¬Moves tokens last s) ∧
      last.result? tokens =
        some (phrase.read (maxDepth - start.nesting) (tokens.drop start.position)) ∧
      ∀ s, Reaches tokens (call phrase start) s → Reaches tokens s last) ∧
    ∀ stop condition depth,
      Reaches tokens (call phrase start) ⟨stop, .done condition depth, []⟩ →
        start.position < stop.position ∧ stop.nesting = start.nesting ∧
        depth = condition.depth ∧
        ∀ (tokens' : List Token) (first : Nat),
          (∀ i, start.position + i ≤ stop.position →
            tokens'[first + i]? = tokens[start.position + i]?) →
          Reaches tokens' (call phrase ⟨first, start.nesting⟩)
            ⟨⟨first + (stop.position - start.position), start.nesting⟩, .done condition depth,
              []⟩ := by
  have hsound : ∀ {s}, Reaches tokens (call phrase start) s → IsSound tokens start s :=
    (isSound_call hposition hnesting).reaches
  refine ⟨fun s h => ⟨(hsound h).position_le, (hsound h).nesting_le⟩,
    (wellFounded_moves tokens).apply _, ?_, ?_⟩
  · obtain ⟨last, hlast, hresult⟩ := exists_reaches_end tokens (call phrase start)
    refine ⟨last, fun s hmove => ?_, outcome_call tokens phrase start ▸ hresult,
      fun s h => h.reaches_end hlast hresult⟩
    rw [exists_moves_iff.mp ⟨s, hmove⟩] at hresult
    cases hresult
  · intro stop condition depth h
    have hstop := hsound h
    have hread := read_of_reaches h
    obtain ⟨used, hused, hne, hlocal⟩ := Phrase.read_local hread
    obtain ⟨hlength, hlt⟩ : start.position + used.length = stop.position ∧
        start.position < stop.position := by
      have hpos := List.length_pos_iff.mpr hne
      have htotal := congrArg List.length hused
      have hle : stop.position ≤ tokens.length := hstop.position_le
      simp only [List.length_drop, List.length_append] at htotal
      omega
    refine ⟨hlt, hstop.nesting_eq, hstop.task, fun tokens' first hagree => ?_⟩
    have hcount : stop.position - start.position = used.length := by omega
    rw [hcount]
    have hahead := drop_eq_append_drop hused fun i hi => hagree i (by omega)
    have hnext : (tokens'.drop (first + used.length)).head? =
        (tokens.drop stop.position).head? := by
      rw [List.head?_drop, List.head?_drop, hagree used.length (by omega), hlength]
    have htotal := congrArg List.length hahead
    simp only [List.length_drop, List.length_append] at htotal
    have hend : first + used.length ≤ tokens'.length := by omega
    refine reaches_of_read (Nat.le_trans (Nat.le_add_right ..) hend) hnesting hend ?_
    rw [hahead]
    exact hlocal _ hnext

/-- A group is read behind the connective before it as it is read at the beginning, as long as no
more than the parenthesis that closes it counts. -/
theorem call_keeps_place_group :
    let group : List Token := [.openParen, .word "a", .comparator ">", .number (.ofInt 1),
      .connective .or, .word "b", .comparator "<", .number (.ofInt 2), .closeParen]
    let condition := Condition.join .or (.compare ⟨"a", .greater, .number (.ofInt 1)⟩)
      (.compare ⟨"b", .less, .number (.ofInt 2)⟩)
    Reaches (.connective .and :: (group ++ [.closeParen])) (call .term ⟨1, 3⟩)
        ⟨⟨10, 3⟩, .done condition 2, []⟩ ∧
      Reaches (group ++ [.closeParen, .quoted "x"]) (call .term ⟨0, 3⟩)
        ⟨⟨9, 3⟩, .done condition 2, []⟩ := by
  intro group condition
  have hread : Reaches (.connective .and :: (group ++ [.closeParen])) (call .term ⟨1, 3⟩)
      ⟨⟨10, 3⟩, .done condition 2, []⟩ :=
    reaches_of_read (by decide) (by decide) (by decide) (by decide +kernel)
  obtain ⟨-, -, -, hdone⟩ := call_keeps_place (.connective .and :: (group ++ [.closeParen])) .term
    ⟨1, 3⟩ (by decide) (by decide)
  obtain ⟨-, -, -, hlocal⟩ := hdone ⟨10, 3⟩ condition 2 hread
  have hagree : ∀ i ≤ 9, (group ++ [.closeParen, .quoted "x"])[0 + i]? =
      (Token.connective .and :: (group ++ [.closeParen]))[1 + i]? := by decide +kernel
  refine ⟨hread, hlocal _ 0 fun i hi => hagree i ?_⟩
  have hi : 1 + i ≤ 10 := hi
  omega

end Machine

end Eligibility
