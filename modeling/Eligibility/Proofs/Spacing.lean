import Eligibility.Condition.Parser
import Eligibility.Proofs.Boundary
import Mathlib.Logic.Relation

/-!
# Blanks between lexemes

Blanks outside of quotes stand between lexemes, so the tokens before them and the tokens behind them
do not depend on each other (`Token.cut_append_blanks`). Hence it does not matter how many blanks
there are and which ones, and where two lexemes stand side by side blanks may come between them
(`Respaced`). Texts that differ in this way, at any number of places, have the same tokens and state
the same condition (`Condition.parse_respaced`).
-/

namespace Eligibility

open Lexeme (Separates IsBetween IsOutsideQuotes)

variable {first blanks second text text' : List Char}

theorem IsRun.separates (h : IsRun isBlank blanks) (rest : List Char) :
    Separates (blanks ++ rest) := by
  obtain ⟨c, tail, rfl⟩ := List.exists_cons_of_ne_nil h.ne_nil
  exact Lexeme.separates_blank (h.all c (by simp))

/-- The two texts differ in the blanks at one place between lexemes. -/
inductive Respaced : List Char → List Char → Prop
  /-- Blanks outside of quotes are replaced by other ones. -/
  | replace {first blanks blanks' second : List Char} : IsOutsideQuotes first second →
      IsRun isBlank blanks → IsRun isBlank blanks' →
      Respaced (first ++ (blanks ++ second)) (first ++ (blanks' ++ second))
  /-- Blanks are put where one lexeme has ended and the next one has not begun. -/
  | insert {first blanks second : List Char} : IsBetween second first → IsRun isBlank blanks →
      Respaced (first ++ second) (first ++ (blanks ++ second))

namespace Token

/-- The tokens of a text, which may be none. -/
def ofText (text : String) : List Token :=
  (scan text).toOption.getD []

theorem ofText_eq_cut (text : String) : ofText text = cut text.toList := by
  rw [ofText]
  cases h : scan text with
  | ok tokens => exact (scan_eq_ok_iff.mp h).2.symm
  | error error =>
    rw [cut, (scan_eq_error_iff.mp h).2]
    rfl

theorem scan_congr {text text' : String} (h : cut text.toList = cut text'.toList) :
    scan text = scan text' := by
  unfold cut at h
  rw [scan, scan, h]

theorem cut_append (h : IsBetween second first) :
    cut (first ++ second) = cut first ++ cut second := by
  rw [cut, h.scan_append, List.map_append, cut, cut]

/-- No token goes across blanks outside of quotes. -/
theorem cut_append_blanks (h : IsRun isBlank blanks) (hq : IsOutsideQuotes first second) :
    cut (first ++ (blanks ++ second)) = cut first ++ cut second := by
  have hbetween := (h.separates second).isBetween (Lexeme.isOutsideQuotes_run h (by decide) hq)
  rw [cut_append hbetween, cut_blanks h.all]

end Token

theorem Respaced.cut_eq (h : Respaced text text') : Token.cut text = Token.cut text' := by
  cases h with
  | replace hq hblanks hblanks' =>
    rw [Token.cut_append_blanks hblanks hq, Token.cut_append_blanks hblanks' hq]
  | insert hbetween hblanks =>
    rw [Token.cut_append hbetween, Token.cut_append_blanks hblanks hbetween.isOutsideQuotes]

theorem Respaced.cut_eq_of_eqvGen (h : Relation.EqvGen Respaced text text') :
    Token.cut text = Token.cut text' := by
  induction h with
  | rel _ _ h => exact h.cut_eq
  | refl => rfl
  | symm _ _ _ ih => exact ih.symm
  | trans _ _ _ _ _ ih ih' => exact ih.trans ih'

/-- The tokens on the two sides of blanks are those of the two sides, if the quotes before the
blanks are paired. So texts that differ in the blanks between their lexemes only have the same
tokens and state the same condition. -/
theorem Condition.parse_respaced :
    (∀ first blanks second : String, Even (first.toList.count '\x27') →
      IsRun isBlank blanks.toList → Token.ofText (first ++ blanks ++ second) =
        Token.ofText first ++ Token.ofText second) ∧
    ∀ text text' : String, Relation.EqvGen Respaced text.toList text'.toList →
      Token.scan text = Token.scan text' ∧ parse text = parse text' := by
  refine ⟨fun first blanks second hq hblanks => ?_, fun text text' h => ?_⟩
  · simp only [Token.ofText_eq_cut, String.toList_append, List.append_assoc]
    exact Token.cut_append_blanks hblanks (.inl hq)
  · have hscan := Token.scan_congr (Respaced.cut_eq_of_eqvGen h)
    exact ⟨hscan, by rw [parse, hscan, parse]⟩

/-- Blanks are put after the name, and other ones stand before the number. -/
theorem Condition.parse_respaced_comparison :
    Token.ofText ("'a b' >" ++ "\t\n" ++ "c'd") =
      [.quoted "a b", .comparator ">"] ++ [.word "c", .word "d"] ∧
    parse "x>\t\n1" = .ok (.compare ⟨"x", .greater, .number (.ofInt 1)⟩) ∧
    parse "x > 1" = .ok (.compare ⟨"x", .greater, .number (.ofInt 1)⟩) := by
  obtain ⟨happend, hrespaced⟩ := Condition.parse_respaced
  have hparse : parse "x > 1" = .ok (.compare ⟨"x", .greater, .number (.ofInt 1)⟩) := by
    decide +kernel
  have hspace : IsRun isBlank [' '] := ⟨by simp, List.all_eq_true.mp (by decide)⟩
  have hblanks : IsRun isBlank "\t\n".toList := ⟨by simp, List.all_eq_true.mp (by decide)⟩
  have hname : IsBetween ">\t\n1".toList ['x'] := by
    have hword : Lexeme.CutBefore ">\t\n1".toList ⟨Lexeme.wordToken ['x'], ['x']⟩ :=
      .word ⟨by simp, List.all_eq_true.mp (by decide)⟩
        (fun h => absurd (h.all 'x' (by simp)) (by decide)) (by decide)
    exact .lexeme hword .start
  have hbefore : Respaced "x>\t\n1".toList "x >\t\n1".toList := .insert hname hspace
  have hreplaced : Respaced ("x >".toList ++ ("\t\n".toList ++ ['1']))
      ("x >".toList ++ ([' '] ++ ['1'])) :=
    .replace (.inl (by decide)) hblanks hspace
  have hafter : Respaced "x >\t\n1".toList "x > 1".toList := hreplaced
  refine ⟨?_, ?_, hparse⟩
  · rw [happend _ _ _ (by decide) hblanks]
    decide +kernel
  · rw [(hrespaced _ _ (.trans _ _ _ (.rel _ _ hbefore) (.rel _ _ hafter))).2, hparse]

end Eligibility
