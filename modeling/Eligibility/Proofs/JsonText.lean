import Eligibility.Json.Printer
import Eligibility.Json.Reader
import Eligibility.Proofs.JsonString
import Eligibility.Proofs.StrictNumeral

/-!
# JSON that reads back

The compact text of a JSON value is cut into the lexemes that were written, if its numbers are
strict and its strings have values (`Json.IsSpelled`), and from the lexemes of any value the
reader gets the value back. Main statements :

* `Json.parse?_toText` : a value is read from its own text;
* `Json.fields?_ofMembers` : the fields of an object are found under their names.
-/

namespace Eligibility

namespace Json

open Numeral (isPart)

/-! ## Lexemes -/

namespace Lexeme

/-- Some text means the lexeme. -/
def IsSpelled : Lexeme → Prop
  | number numeral => numeral.IsStrict
  | string value? => value?.isSome = true
  | _ => True

/-- The lexemes that more characters might belong to. -/
def isNumber : Lexeme → Bool
  | number _ => true
  | _ => false

/-- Not both are numbers, so that one can stand next to the other. -/
def Apart (a b : Lexeme) : Prop :=
  a.isNumber = true → b.isNumber = false

variable {lexeme : Lexeme} {lexemes lexemes' : List Lexeme} {text rest : List Char}
  {numeral : Numeral}

/-- A strict numeral begins with a digit or a minus. -/
theorem startsWith_toText (h : numeral.IsStrict) (rest : List Char) :
    startsWith (fun c => c.isDigit || c == '-') (numeral.toText ++ rest) = true := by
  obtain ⟨c, whole, hwhole⟩ := List.exists_cons_of_ne_nil h.whole.ne_nil
  have hc := h.whole.all c (by simp [hwhole])
  cases hnegative : numeral.negative <;> simp [Numeral.toText, hnegative, hwhole, hc]

/-- A lexeme is read before everything, but a number only before what no numeral goes on with. -/
theorem cut?_text (h : lexeme.IsSpelled)
    (hrest : lexeme.isNumber = true → startsWith isPart rest = false) :
    cut? (lexeme.text ++ rest) = some (lexeme, rest) := by
  cases lexeme with
  | number numeral =>
    have hstart := startsWith_toText h rest
    rw [text, cut?, Numeral.cutStrict?_toText h (hrest rfl)]
    · rfl
    -- no other lexeme begins with a digit or a minus
    all_goals
      intros
      simp_all
  | string value? =>
    obtain ⟨value, rfl⟩ := Option.isSome_iff_exists.mp h
    rw [text, cut?_escaped, Option.getD_some, String.ofList_toList]
  | bool value => cases value <;> rfl
  | openArray | closeArray | openObject | closeObject | comma | colon | null => rfl

theorem startsWith_isSpace_text (h : lexeme.IsSpelled) (rest : List Char) :
    startsWith isSpace (lexeme.text ++ rest) = false := by
  cases lexeme with
  | number numeral =>
    have hstart := startsWith_toText h rest
    rw [text]
    cases htext : numeral.toText ++ rest with
    | nil => rfl
    | cons c tail =>
      rw [htext, startsWith_cons] at hstart
      rw [startsWith_cons, Bool.eq_false_iff]
      intro hspace
      simp only [isSpace, Bool.or_eq_true, beq_iff_eq] at hspace
      rcases hspace with ((rfl | rfl) | rfl) | rfl <;> simp at hstart
  | string value? => rfl
  | bool value => cases value <;> rfl
  | openArray | closeArray | openObject | closeObject | comma | colon | null => rfl

/-- No numeral goes on with a lexeme that is not a number. -/
theorem startsWith_isPart_text (h : lexeme.isNumber = false) :
    startsWith isPart (lexeme.text ++ rest) = false := by
  cases lexeme with
  | number numeral => cases h
  | string value? => rfl
  | bool value => cases value <;> rfl
  | openArray | closeArray | openObject | closeObject | comma | colon | null => rfl

/-- A lexeme is cut off first, and then what comes after it. -/
theorem scan?_text (h : lexeme.IsSpelled)
    (hrest : lexeme.isNumber = true → startsWith isPart rest = false) :
    scan? (lexeme.text ++ rest) = (scan? rest).map (lexeme :: ·) := by
  have hcut := cut?_text h hrest
  have hspace := startsWith_isSpace_text h rest
  cases htext : lexeme.text ++ rest with
  | nil =>
    have hlength := length_lt_of_cut? hcut
    simp [htext] at hlength
  | cons c tail =>
    rw [htext] at hcut hspace
    rw [scan?, if_neg (by simpa using hspace)]
    split <;> simp_all

/-- The texts of lexemes, of which no two numbers stand side by side, are cut into them. -/
theorem scan?_texts (h : ∀ lexeme ∈ lexemes, lexeme.IsSpelled) (hapart : lexemes.IsChain Apart) :
    scan? (lexemes.flatMap Lexeme.text) = some lexemes := by
  induction lexemes with
  | nil => rw [List.flatMap_nil, scan?]
  | cons lexeme lexemes ih =>
    have hrest : lexeme.isNumber = true →
        startsWith isPart (lexemes.flatMap Lexeme.text) = false := by
      intro hnumber
      cases lexemes with
      | nil => rfl
      | cons next lexemes =>
        rw [List.flatMap_cons]
        exact startsWith_isPart_text (hapart.rel hnumber)
    rw [List.flatMap_cons, scan?_text (h lexeme (by simp)) hrest,
      ih (fun lexeme hl => h lexeme (by simp [hl])) hapart.tail, Option.map_some]

/-- Whatever is not a number sets others apart. -/
theorem isChain_append_cons (h : lexemes.IsChain Apart) (hnumber : lexeme.isNumber = false)
    (h' : lexemes'.IsChain Apart) : (lexemes ++ lexeme :: lexemes').IsChain Apart := by
  refine List.isChain_append.mpr ⟨h, List.isChain_cons.mpr ⟨fun next _ hnext => ?_, h'⟩, ?_⟩
  · simp [hnumber] at hnext
  · rintro last - next hnext -
    obtain rfl : lexeme = next := by simpa using hnext
    exact hnumber

end Lexeme

/-! ## Lexemes of values -/

mutual

/-- In the lexemes of a value no two numbers stand side by side. -/
theorem isChain_lexemes : ∀ json : Json, json.lexemes.IsChain Lexeme.Apart
  | null | bool _ | number _ | string _ => by
    rw [lexemes]
    exact .singleton _
  | array items => by
    rw [lexemes]
    exact Lexeme.isChain_append_cons .nil rfl
      (Lexeme.isChain_append_cons (isChain_itemLexemes items) rfl .nil)
  | object members => by
    rw [lexemes]
    exact Lexeme.isChain_append_cons .nil rfl
      (Lexeme.isChain_append_cons (isChain_memberLexemes members) rfl .nil)

theorem isChain_itemLexemes : ∀ items : List Json, (itemLexemes items).IsChain Lexeme.Apart
  | [] => by
    rw [itemLexemes]
    exact .nil
  | [item] => by
    rw [itemLexemes]
    exact isChain_lexemes item
  | item :: second :: items => by
    rw [itemLexemes]
    · exact Lexeme.isChain_append_cons (isChain_lexemes item) rfl
        (isChain_itemLexemes (second :: items))
    · simp

theorem isChain_memberLexemes : ∀ members : List (Option String × Json),
    (memberLexemes members).IsChain Lexeme.Apart
  | [] => by
    rw [memberLexemes]
    exact .nil
  | [(name, json)] => by
    rw [memberLexemes]
    exact Lexeme.isChain_append_cons .nil rfl
      (Lexeme.isChain_append_cons .nil rfl (isChain_lexemes json))
  | (name, json) :: second :: members => by
    rw [memberLexemes]
    · exact Lexeme.isChain_append_cons .nil rfl (Lexeme.isChain_append_cons .nil rfl
        (Lexeme.isChain_append_cons (isChain_lexemes json) rfl
          (isChain_memberLexemes (second :: members))))
    · simp

end

mutual

/-- The lexemes of a value lead from where it comes next to where it has been read. -/
theorem foldlM_lexemes : ∀ (json : Json) (place : Place) (fresh : Bool) (rest : List Lexeme),
    (json.lexemes ++ rest).foldlM State.next? (.value place fresh) =
      rest.foldlM State.next? (.done place json)
  | null, _, _, _ | bool _, _, _, _ | number _, _, _, _ | string _, _, _, _ => by
    rw [lexemes]
    rfl
  | array items, place, fresh, rest => by
    rw [lexemes, List.cons_append, List.append_assoc]
    exact foldlM_itemLexemes items place [] true rest fun _ => ⟨rfl, rfl⟩
  | object members, place, fresh, rest => by
    rw [lexemes, List.cons_append, List.append_assoc]
    exact foldlM_memberLexemes members place [] true rest fun _ => ⟨rfl, rfl⟩

/-- The end may come at once only where nothing has been read yet. -/
theorem foldlM_itemLexemes : ∀ (items : List Json) (outer : Place) (before : List Json)
    (fresh : Bool) (rest : List Lexeme), (items = [] → fresh = true ∧ before = []) →
    (itemLexemes items ++ .closeArray :: rest).foldlM State.next?
        (.value (.item outer before) fresh) =
      rest.foldlM State.next? (.done outer (.array (before.reverseAux items)))
  | [], outer, before, fresh, rest, h => by
    obtain ⟨rfl, rfl⟩ := h rfl
    rw [itemLexemes]
    rfl
  | [item], outer, before, fresh, rest, _ => by
    rw [itemLexemes]
    exact foldlM_lexemes item (.item outer before) fresh (.closeArray :: rest)
  | item :: second :: items, outer, before, fresh, rest, _ => by
    rw [itemLexemes, List.append_assoc]
    · exact (foldlM_lexemes item (.item outer before) fresh _).trans
        (foldlM_itemLexemes (second :: items) outer (item :: before) false rest (by simp))
    · simp

theorem foldlM_memberLexemes : ∀ (members : List (Option String × Json)) (outer : Place)
    (before : List (Option String × Json)) (fresh : Bool) (rest : List Lexeme),
    (members = [] → fresh = true ∧ before = []) →
    (memberLexemes members ++ .closeObject :: rest).foldlM State.next?
        (.memberName outer before fresh) =
      rest.foldlM State.next? (.done outer (.object (before.reverseAux members)))
  | [], outer, before, fresh, rest, h => by
    obtain ⟨rfl, rfl⟩ := h rfl
    rw [memberLexemes]
    rfl
  | [(name, json)], outer, before, fresh, rest, _ => by
    rw [memberLexemes]
    exact foldlM_lexemes json (.member outer before name) false (.closeObject :: rest)
  | (name, json) :: second :: members, outer, before, fresh, rest, _ => by
    rw [memberLexemes, List.cons_append, List.cons_append, List.append_assoc]
    · exact (foldlM_lexemes json (.member outer before name) false _).trans
        (foldlM_memberLexemes (second :: members) outer ((name, json) :: before) false rest
          (by simp))
    · simp

end

/-- A value is read from its lexemes. -/
theorem ofLexemes?_lexemes (json : Json) : ofLexemes? json.lexemes = some json := by
  have hfold := foldlM_lexemes json .top false []
  rw [List.append_nil] at hfold
  rw [ofLexemes?, hfold]
  rfl

/-! ## Texts of values -/

/-- Some text means each lexeme of the value. -/
def IsSpelled (json : Json) : Prop :=
  ∀ lexeme ∈ json.lexemes, lexeme.IsSpelled

theorem isSpelled_itemLexemes : ∀ items : List Json,
    (∀ lexeme ∈ itemLexemes items, lexeme.IsSpelled) ↔ ∀ item ∈ items, item.IsSpelled
  | [] => by simp [itemLexemes]
  | [item] => by simp [itemLexemes, IsSpelled]
  | item :: second :: items => by
    rw [itemLexemes, List.forall_mem_append, List.forall_mem_cons, List.forall_mem_cons,
      isSpelled_itemLexemes (second :: items)]
    · exact and_congr_right fun _ => and_iff_right trivial
    · simp

theorem isSpelled_memberLexemes : ∀ members : List (Option String × Json),
    (∀ lexeme ∈ memberLexemes members, lexeme.IsSpelled) ↔
      ∀ member ∈ members, member.1.isSome = true ∧ member.2.IsSpelled
  | [] => by simp [memberLexemes]
  | [(name, json)] => by
    simp [memberLexemes, IsSpelled, Lexeme.IsSpelled]
  | (name, json) :: second :: members => by
    rw [memberLexemes, List.forall_mem_cons, List.forall_mem_cons, List.forall_mem_append,
      List.forall_mem_cons, List.forall_mem_cons, isSpelled_memberLexemes (second :: members)]
    · simp only [Lexeme.IsSpelled, IsSpelled, true_and, and_assoc]
    · simp

@[simp] theorem isSpelled_array {items : List Json} :
    (array items).IsSpelled ↔ ∀ item ∈ items, item.IsSpelled := by
  rw [IsSpelled, lexemes, List.forall_mem_cons, List.forall_mem_append, List.forall_mem_singleton,
    isSpelled_itemLexemes]
  exact ⟨fun h => h.2.1, fun h => ⟨trivial, h, trivial⟩⟩

@[simp] theorem isSpelled_ofMembers {members : List (String × Json)} :
    (ofMembers members).IsSpelled ↔ ∀ member ∈ members, member.2.IsSpelled := by
  rw [IsSpelled, ofMembers, lexemes, List.forall_mem_cons, List.forall_mem_append,
    List.forall_mem_singleton, isSpelled_memberLexemes, List.forall_mem_map]
  exact ⟨fun h member hm => (h.2.1 member hm).2,
    fun h => ⟨trivial, fun member hm => ⟨rfl, h member hm⟩, trivial⟩⟩

@[simp] theorem isSpelled_null : null.IsSpelled := by simp [IsSpelled, lexemes, Lexeme.IsSpelled]

@[simp] theorem isSpelled_bool (value : Bool) : (bool value).IsSpelled := by
  simp [IsSpelled, lexemes, Lexeme.IsSpelled]

@[simp] theorem isSpelled_number {numeral : Numeral} :
    (number numeral).IsSpelled ↔ numeral.IsStrict := by
  simp [IsSpelled, lexemes, Lexeme.IsSpelled]

@[simp] theorem isSpelled_ofString (text : String) : (ofString text).IsSpelled := by
  simp [IsSpelled, ofString, lexemes, Lexeme.IsSpelled]

@[simp] theorem isSpelled_ofNat (n : Nat) : (ofNat n).IsSpelled :=
  isSpelled_number.mpr (Numeral.isStrict_toDigits n)

/-- Finite numbers are written as strict numerals that denote them, and the others as null. -/
theorem ofNumber_cases (x : Binary64) :
    (∃ numeral : Numeral, ofNumber x = number numeral ∧ numeral.IsStrict ∧ numeral.value = x ∧
      x.isFinite = true) ∨ ofNumber x = null ∧ x.isFinite = false := by
  cases x with
  | nan => exact .inr ⟨rfl, rfl⟩
  | signed negative m =>
    rw [ofNumber, Binary64.isFinite]
    by_cases hm : m.isFinite = true
    · exact .inl ⟨_, if_pos hm, Numeral.isStrict_ofMagnitude numberStyle negative m,
        Numeral.value_ofMagnitude numberStyle negative hm, hm⟩
    · exact .inr ⟨if_neg hm, Bool.eq_false_iff.mpr hm⟩

/-- A reader that is exact reads finite numbers back, and nothing from null. -/
theorem number?_ofNumber [NumberReader] (hexact : NumberReader.IsExact) (x : Binary64) :
    (ofNumber x).number? = if x.isFinite then some x else none := by
  rcases ofNumber_cases x with ⟨-, -, -, -, hfinite⟩ | ⟨heq, hfinite⟩
  · rw [if_pos hfinite, hexact x hfinite]
  · rw [heq, if_neg (Bool.eq_false_iff.mp hfinite)]
    rfl

theorem NumberReader.isExact_nearest : @NumberReader.IsExact .nearest := by
  intro x hfinite
  rcases ofNumber_cases x with ⟨numeral, heq, -, rfl, -⟩ | ⟨-, hinfinite⟩
  · rw [heq]
    exact if_pos hfinite
  · rw [hfinite] at hinfinite
    cases hinfinite

@[simp] theorem isSpelled_ofNumber (x : Binary64) : (ofNumber x).IsSpelled := by
  rcases ofNumber_cases x with ⟨numeral, heq, hstrict, -⟩ | ⟨heq, -⟩
  · exact heq ▸ isSpelled_number.mpr hstrict
  · exact heq ▸ isSpelled_null

/-- A value is read from its own text, if its numbers are strict and its strings have values. -/
theorem parse?_toText {json : Json} (h : json.IsSpelled) : parse? json.toText = some json := by
  rw [parse?, toText, String.toList_ofList, Lexeme.scan?_texts h json.isChain_lexemes,
    Option.bind_some, ofLexemes?_lexemes]

/-! ## Parts of values -/

@[simp] theorem string?_ofString (text : String) : (ofString text).string? = some text := rfl

@[simp] theorem bool?_bool (value : Bool) : (bool value).bool? = some value := rfl

theorem natural?_ofNat (bound n : Nat) :
    natural? bound (ofNat n) = if n < bound then some n else none := by
  simp [natural?, ofNat, Numeral.natural?, digitsValue_toDigits, Option.filter_some]

/-! ## Members of objects -/

variable {members : List (String × Json)}

/-- With distinct names the member under a name is found. -/
theorem member?_eq_lookup (h : (members.map Prod.fst).Nodup) (name : String) :
    member? [name] (members.map fun member => (some member.1, member.2)) =
      some (members.lookup name) := by
  induction members with
  | nil => rfl
  | cons member members ih =>
    obtain ⟨hname, hrest⟩ := List.nodup_cons.mp h
    have hlookup := ih hrest
    rw [member?] at hlookup ⊢
    rw [List.map_cons, List.lookup_cons]
    by_cases heq : name = member.1
    · have hnone : (members.map fun member => (some member.1, member.2)).filter
          (fun member => member.1.any (· ∈ [name])) = [] := by
        rw [List.filter_eq_nil_iff, List.forall_mem_map]
        intro other hother hany
        have hname' : other.1 = name := by simpa using hany
        exact hname (heq ▸ hname' ▸ List.mem_map_of_mem hother)
      rw [List.filter_cons_of_pos (by simp [heq]), hnone, beq_iff_eq.mpr heq]
    · rw [List.filter_cons_of_neg (by simpa [eq_comm] using heq), hlookup,
        beq_eq_false_iff_ne.mpr heq]

/-- The fields of an object with distinct names. -/
theorem fields?_ofMembers (h : (members.map Prod.fst).Nodup) (names : List String) :
    (ofMembers members).fields? (names.map ([·])) = some (names.map (members.lookup ·)) := by
  have hall : (members.map fun member => (some member.1, member.2)).all (·.1.isSome) = true := by
    simp
  rw [ofMembers, fields?, if_pos hall]
  induction names with
  | nil => rfl
  | cons name names ih => simp [member?_eq_lookup h, ih]

end Json

end Eligibility
