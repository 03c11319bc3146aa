import Eligibility.Proofs.JsonText
import Eligibility.Wire.Definition
import Eligibility.Wire.Request

/-!
# Submissions that read back from JSON

Rule sets and requests hold names, texts, ids and records. All of these keep their value in JSON,
whatever characters occur in them, and a field value keeps its type, too : if numbers are read
exactly (`Json.NumberReader.IsExact`), only one that is not finite is lost
(`FieldValue.ofJson?_toJson_eq_some_iff`). A record is written with its entries in some order, which
does not matter to those who look fields up (`Record.get?_eq_of_perm`). Main statement :

* `submissions_readBack` : which rule sets and requests are read again from their texts.
-/

namespace Eligibility

namespace Json

/-- Items that are read back one by one are read back as a list. -/
theorem items?_map {α : Type} {read? : Json → Option α} {write : α → Json}
    (h : ∀ item, read? (write item) = some item) (items : List α) :
    (array (items.map write)).items? read? = some items := by
  rw [items?]
  induction items with
  | nil => rfl
  | cons item items ih => simp [h, ih]

end Json

/-! ## Rule sets -/

namespace RuleDefinition

theorem isSpelled_toJson (definition : RuleDefinition) : definition.toJson.IsSpelled := by
  simp [toJson]

/-- A definition is read back, its text under the first of the two names that it may have. -/
theorem ofJson?_toJson (definition : RuleDefinition) :
    ofJson? definition.toJson = some definition := by
  have hfields : definition.toJson.fields?
      [["name"], ["description"], ["ruleString", "rule_string"]] =
        some [some (.ofString definition.name), some (.ofString definition.description),
          some (.ofString definition.text)] := by
    simp [toJson, Json.ofMembers, Json.fields?, Json.member?]
  rw [ofJson?, hfields]
  rfl

end RuleDefinition

namespace RuleSet

/-- Reads a rule set from its text. -/
def ofText? (text : String) : Option RuleSet :=
  (Json.parse? text).bind ofJson?

theorem ofText?_toText (set : RuleSet) : ofText? set.toJson.toText = some set := by
  have hspelled : set.toJson.IsSpelled := by
    simp [toJson, RuleDefinition.isSpelled_toJson]
  have hfields : set.toJson.fields? [["rules"]] =
      some [some (.array (set.rules.map RuleDefinition.toJson))] :=
    Json.fields?_ofMembers (by simp) ["rules"]
  have hrules := Json.items?_map RuleDefinition.ofJson?_toJson set.rules
  rw [ofText?, Json.parse?_toText hspelled, Option.bind_some, ofJson?, hfields]
  simp [hrules]

end RuleSet

/-! ## Ids -/

theorem idOfJson?_ofNat (id : UInt64) : idOfJson? (.ofNat id.toNat) = some id := by
  have hbound : id.toNat < idBound := id.toNat_lt
  rw [idOfJson?, Json.natural?_ofNat, if_pos hbound]
  simp

namespace CombineRequest

/-- Reads a request from its text. -/
def ofText? (text : String) : Option CombineRequest :=
  (Json.parse? text).bind ofJson?

theorem ofText?_toText (request : CombineRequest) :
    ofText? request.toJson.toText = some request := by
  have hspelled : request.toJson.IsSpelled := by simp [toJson]
  have hfields : request.toJson.fields? [["ruleIds"]] =
      some [some (.array (request.ruleIds.map fun id => .ofNat id.toNat))] :=
    Json.fields?_ofMembers (by simp) ["ruleIds"]
  have hids := Json.items?_map idOfJson?_ofNat request.ruleIds
  rw [ofText?, Json.parse?_toText hspelled, Option.bind_some, ofJson?, hfields]
  simp [hids]

end CombineRequest

/-! ## Records -/

namespace FieldValue

/-- The value is neither an infinity nor NaN. -/
def IsFinite (value : FieldValue) : Prop :=
  ∀ x, value = .number x → x.isFinite = true

variable {value value' : FieldValue}

theorem ofJson?_ofNumber [Json.NumberReader] (x : Binary64) :
    ofJson? (.ofNumber x) = (Json.ofNumber x).number?.map number := by
  rcases Json.ofNumber_cases x with ⟨numeral, heq, -⟩ | ⟨heq, -⟩ <;> rw [heq] <;> rfl

/-- Values read back as values of their own type, but for numbers that are not finite. -/
theorem ofJson?_toJson_eq_some_iff [Json.NumberReader] (hexact : Json.NumberReader.IsExact) :
    ofJson? value.toJson = some value' ↔ value' = value ∧ value.IsFinite := by
  cases value with
  | truth b =>
    have htruth : (truth b).IsFinite := nofun
    simp [toJson, ofJson?, htruth, eq_comm]
  | number x =>
    have hnumber : (number x).IsFinite ↔ x.isFinite = true := by simp [IsFinite]
    rw [toJson, hnumber, ofJson?_ofNumber, Json.number?_ofNumber hexact]
    by_cases hfinite : x.isFinite = true <;> simp [hfinite, eq_comm]
  | text s =>
    have htext : (text s).IsFinite := nofun
    simp [toJson, Json.ofString, ofJson?, htext, eq_comm]

theorem isSpelled_toJson (value : FieldValue) : value.toJson.IsSpelled := by
  cases value with
  | truth b => exact Json.isSpelled_bool b
  | number x => exact Json.isSpelled_ofNumber x
  | text s => exact Json.isSpelled_ofString s

end FieldValue

namespace Record

variable {record record' : Record}

/-- Every value is finite. -/
def IsFinite (record : Record) : Prop :=
  ∀ entry ∈ record.entries, entry.2.IsFinite

theorem put_of_notMem {field : String} {value : FieldValue} {entries : List (String × FieldValue)}
    (h : field ∉ entries.map Prod.fst) : put field value entries = entries ++ [(field, value)] := by
  induction entries with
  | nil => rfl
  | cons entry entries ih =>
    rw [List.map_cons, List.mem_cons, not_or] at h
    rw [put, if_neg (Ne.symm h.1), ih h.2, List.cons_append]

/-- New fields come after those that are there. -/
theorem entries_foldl_insert {entries : List (String × FieldValue)}
    (h : ((record.entries ++ entries).map Prod.fst).Nodup) :
    (entries.foldl (fun record entry => record.insert entry.1 entry.2) record).entries =
      record.entries ++ entries := by
  induction entries generalizing record with
  | nil => rw [List.foldl_nil, List.append_nil]
  | cons entry entries ih =>
    have hnew : entry.1 ∉ record.entries.map Prod.fst := by
      rw [List.map_append, List.map_cons, List.nodup_append] at h
      exact fun hmem => h.2.2 _ hmem _ List.mem_cons_self rfl
    have hentries : (record.insert entry.1 entry.2).entries = record.entries ++ [entry] :=
      put_of_notMem hnew
    rw [List.foldl_cons, ih, hentries, List.append_assoc, List.singleton_append]
    rwa [hentries, List.append_assoc, List.singleton_append]

theorem ext (h : record.entries = record'.entries) : record = record' := by
  cases record
  cases record'
  cases h
  rfl

/-- A record is the record of its entries. -/
theorem ofList_entries (record : Record) : ofList record.entries = record :=
  ext (@entries_foldl_insert empty _ record.nodup)

/-- The entries are read back one by one. -/
theorem mapM_entryOfMember?_eq_some_iff [Json.NumberReader] (hexact : Json.NumberReader.IsExact)
    {entries entries' : List (String × FieldValue)} :
    (entries.map fun entry => (some entry.1, entry.2.toJson)).mapM entryOfMember? = some entries' ↔
      entries' = entries ∧ ∀ entry ∈ entries, entry.2.IsFinite := by
  induction entries generalizing entries' with
  | nil => simp [eq_comm]
  | cons entry entries ih =>
    simp only [List.map_cons, List.mapM_cons, entryOfMember?, Option.bind_eq_bind,
      Option.pure_def, Option.bind_some, Option.bind_eq_some_iff, Option.some.injEq,
      FieldValue.ofJson?_toJson_eq_some_iff hexact, ih, List.forall_mem_cons]
    constructor
    · rintro ⟨_, ⟨_, ⟨rfl, hentry⟩, rfl⟩, _, ⟨rfl, hentries⟩, rfl⟩
      exact ⟨rfl, hentry, hentries⟩
    · rintro ⟨rfl, hentry, hentries⟩
      exact ⟨entry, ⟨_, ⟨rfl, hentry⟩, rfl⟩, _, ⟨rfl, hentries⟩, rfl⟩

theorem ofJson?_toJson_eq_some_iff [Json.NumberReader] (hexact : Json.NumberReader.IsExact) :
    ofJson? record.toJson = some record' ↔ record' = record ∧ record.IsFinite := by
  have hmembers : record.toJson =
      .object (record.entries.map fun entry => (some entry.1, entry.2.toJson)) := by
    rw [toJson, Json.ofMembers, List.map_map]
    rfl
  rw [hmembers, ofJson?, Option.map_eq_some_iff]
  simp only [mapM_entryOfMember?_eq_some_iff hexact]
  constructor
  · rintro ⟨_, ⟨rfl, hfinite⟩, rfl⟩
    exact ⟨ofList_entries record, hfinite⟩
  · rintro ⟨rfl, hfinite⟩
    exact ⟨_, ⟨rfl, hfinite⟩, ofList_entries record'⟩

theorem isSpelled_toJson (record : Record) : record.toJson.IsSpelled := by
  rw [toJson, Json.isSpelled_ofMembers, List.forall_mem_map]
  exact fun entry _ => entry.2.isSpelled_toJson

/-- A field has the one value that is listed for it. -/
theorem lookup_eq_some_iff {entries : List (String × FieldValue)} {field : String}
    {value : FieldValue} (h : (entries.map Prod.fst).Nodup) :
    entries.lookup field = some value ↔ (field, value) ∈ entries := by
  induction entries with
  | nil => simp
  | cons entry entries ih =>
    obtain ⟨hnew, hrest⟩ := List.nodup_cons.mp h
    rw [List.lookup_cons, List.mem_cons]
    by_cases hfield : field = entry.1
    · subst hfield
      have hnone : (entry.1, value) ∉ entries :=
        fun hmem => hnew (List.mem_map.mpr ⟨_, hmem, rfl⟩)
      simp [hnone, Prod.ext_iff, eq_comm]
    · rw [beq_eq_false_iff_ne.mpr hfield]
      simp [hfield, Prod.ext_iff, ih hrest]

/-- The order of the entries does not matter to those who look fields up. -/
theorem get?_eq_of_perm (h : record.entries.Perm record'.entries) (field : String) :
    record.get? field = record'.get? field := by
  refine Option.ext fun value => ?_
  rw [get?, get?, lookup_eq_some_iff record.nodup, lookup_eq_some_iff record'.nodup, h.mem_iff]

end Record

/-! ## Requests with a record -/

namespace EvaluateRequest

variable [Json.NumberReader]

/-- Reads a request from its text. -/
def ofText? (text : String) : Option EvaluateRequest :=
  (Json.parse? text).bind ofJson?

theorem ofText?_toText_eq_some_iff (hexact : Json.NumberReader.IsExact)
    {request request' : EvaluateRequest} : ofText? request.toJson.toText = some request' ↔
      request' = request ∧ request.data.IsFinite := by
  have hspelled : request.toJson.IsSpelled := by simp [toJson, Record.isSpelled_toJson]
  have hfields : request.toJson.fields? [["ruleId"], ["data"]] =
      some [some (.ofNat request.ruleId.toNat), some request.data.toJson] :=
    Json.fields?_ofMembers (by simp) ["ruleId", "data"]
  rw [ofText?, Json.parse?_toText hspelled, Option.bind_some, ofJson?, hfields]
  simp only [Option.bind_eq_bind, Option.bind_some, Option.pure_def, idOfJson?_ofNat,
    Option.bind_eq_some_iff, Record.ofJson?_toJson_eq_some_iff hexact, Option.some.injEq]
  constructor
  · rintro ⟨_, ⟨rfl, hfinite⟩, rfl⟩
    exact ⟨rfl, hfinite⟩
  · rintro ⟨rfl, hfinite⟩
    exact ⟨_, ⟨rfl, hfinite⟩, rfl⟩

end EvaluateRequest

/-- Every rule set is read again from its text, and so is every request to combine rules. If numbers
are read exactly, a request to test a record is read again, and as no other, exactly if the numbers
in the record are finite. The entries may be written in any order : the fields of the record that is
read have the values that they had, each of its own type. -/
theorem submissions_readBack [Json.NumberReader] (hexact : Json.NumberReader.IsExact) :
    (∀ set : RuleSet, RuleSet.ofText? set.toJson.toText = some set) ∧
    (∀ request : CombineRequest, CombineRequest.ofText? request.toJson.toText = some request) ∧
    (∀ request request' : EvaluateRequest,
      EvaluateRequest.ofText? request.toJson.toText = some request' ↔
        request' = request ∧ request.data.IsFinite) ∧
    ∀ (request : EvaluateRequest) (written : Record), request.data.IsFinite →
      written.entries.Perm request.data.entries → ∃ read,
        EvaluateRequest.ofText? (EvaluateRequest.toJson ⟨request.ruleId, written⟩).toText =
          some read ∧
        read.ruleId = request.ruleId ∧
          ∀ field, read.data.get? field = request.data.get? field := by
  refine ⟨RuleSet.ofText?_toText, CombineRequest.ofText?_toText,
    fun _ _ => EvaluateRequest.ofText?_toText_eq_some_iff hexact,
    fun request written hfinite hperm => ⟨⟨request.ruleId, written⟩, ?_, rfl, ?_⟩⟩
  · exact (EvaluateRequest.ofText?_toText_eq_some_iff hexact).mpr
      ⟨rfl, fun entry hentry => hfinite entry (hperm.mem_iff.mp hentry)⟩
  · exact fun field => Record.get?_eq_of_perm hperm field

/-- A number, a text that looks like it and a truth value stay apart, also if the last one is
written first. The id is the greatest that there is. -/
theorem submissions_readBack_reversed :
    let age := ("age", FieldValue.number (.ofInt 30))
    let code := ("zip \"code\"", FieldValue.text "30")
    let isOpen := ("open", FieldValue.truth true)
    let request : EvaluateRequest :=
      ⟨0xffffffffffffffff, [age, code, isOpen], by simp [age, code, isOpen]⟩
    let text := "\x7b\"ruleId\":18446744073709551615,\"data\":" ++
      "\x7b\"open\":true,\"zip \\\"code\\\"\":\"30\",\"age\":30.0\x7d\x7d"
    ∃ read, EvaluateRequest.ofText? text = some read ∧ read.ruleId = request.ruleId ∧
      ∀ field, read.data.get? field = request.data.get? field := by
  intro age code isOpen request text
  have hfinite : request.data.IsFinite := by
    intro entry hentry x hx
    have hentry : entry = age ∨ entry = code ∨ entry = isOpen := by simpa [request] using hentry
    rcases hentry with rfl | rfl | rfl
    · cases hx
      decide +kernel
    · cases hx
    · cases hx
  let written : Record := ⟨[isOpen, code, age], by simp [age, code, isOpen]⟩
  have hperm : written.entries.Perm request.data.entries := List.reverse_perm [age, code, isOpen]
  have hread :=
    (submissions_readBack Json.NumberReader.isExact_nearest).2.2.2 request written hfinite hperm
  have htext : (EvaluateRequest.toJson ⟨request.ruleId, written⟩).toText = text := by
    decide +kernel
  rwa [htext] at hread

end Eligibility
