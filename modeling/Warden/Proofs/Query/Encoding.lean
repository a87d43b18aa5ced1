import Mathlib.Data.List.Forall2
import Warden.Json.Writer
import Warden.Proofs.Query.Parameters
import Warden.Proofs.Text.Path

/-! # Two ways to send a request

What stands as it is in a JSON body is written as a text in a query string: records and lists as
JSON, lists of names also with commas between them. Every parameter has its own rule for telling the
two apart, and none of them ever sees a difference: whichever of the parameters are sent as texts,
the request that is read is the same, or it is turned down for the same reason
(**`Request.ofParameters_of_sent`**).

* **`Parameters.Sent`** lists the ways in which a value can be sent.
* A JSON text of a list or a record shows by its first character what it is, and has no blanks
  around it (`exists_of_write_list`, `exists_of_write_record`).
* Names with commas between them are read as these names (`readNames_joined`). -/

namespace Warden

/-! ## Blanks around a text -/

namespace Text

/-- A joined text begins with its first piece. -/
theorem exists_join_cons (sep first : String) (rest : List String) :
    ∃ others, (join sep (first :: rest)).toList = first.toList ++ others := by
  cases rest with
  | nil => exact ⟨[], by rw [join, String.intercalate_singleton, List.append_nil]⟩
  | cons next rest =>
      rw [join, String.intercalate_cons_cons, String.toList_append, String.toList_append,
        List.append_assoc]
      exact ⟨_, rfl⟩

/-- A text that begins with no blank keeps its first character when it is trimmed. -/
theorem head?_trimChars {c : Char} (hc : isBlank c = false) (cs : List Char) :
    (trimChars (c :: cs)).head? = some c := by
  obtain ⟨before, after, hcs, hbefore, hafter⟩ := exists_trimChars (c :: cs)
  have hnone {blank : List Char} (h : ∀ d ∈ blank, isBlank d = true) : c ∉ blank := by
    intro hmem
    rw [h c hmem] at hc
    cases hc
  -- it is not among the blanks before the trimmed text, and not among those after it
  cases before with
  | cons d before =>
      obtain ⟨rfl, -⟩ := List.cons_eq_cons.1 hcs
      exact absurd List.mem_cons_self (hnone hbefore)
  | nil =>
      cases htrim : trimChars (c :: cs) with
      | nil =>
          rw [htrim, List.nil_append, List.nil_append] at hcs
          exact absurd (hcs ▸ List.mem_cons_self) (hnone hafter)
      | cons d ds =>
          rw [htrim] at hcs
          obtain ⟨rfl, -⟩ := List.cons_eq_cons.1 hcs
          rfl

/-- A text that begins and ends with no blank has none around it. -/
theorem trimChars_of_ends {c d : Char} (hc : isBlank c = false) (hd : isBlank d = false)
    (cs : List Char) : trimChars (c :: (cs ++ [d])) = c :: (cs ++ [d]) := by
  have hreverse : (c :: (cs ++ [d])).reverse = d :: (cs.reverse ++ [c]) := by simp
  rw [trimChars, List.dropWhile_cons_of_neg (by simp [hc]), hreverse,
    List.dropWhile_cons_of_neg (by simp [hd]), ← hreverse, List.reverse_reverse]

/-- A text whose characters have no blanks around them has none. -/
theorem trim_ofList {cs : List Char} (h : trimChars cs = cs) :
    trim (String.ofList cs) = String.ofList cs := by
  rw [trim, String.toList_ofList, h]

/-- A trimmed text begins with no blank. -/
theorem isBlank_of_trimChars_eq {c : Char} {cs : List Char} (h : trimChars (c :: cs) = c :: cs) :
    isBlank c = false := by
  cases hc : isBlank c with
  | false => rfl
  | true =>
      -- the text would be shorter without it
      have hblank : trimChars ([c] ++ cs) = trimChars cs :=
        trimChars_append_left (List.forall_mem_singleton.2 hc) cs
      obtain ⟨before, after, hcs, -, -⟩ := exists_trimChars cs
      have hlength := congrArg List.length hcs
      rw [← hblank, List.singleton_append, h] at hlength
      simp only [List.length_append, List.length_cons] at hlength
      omega

end Text

/-! ## JSON texts of lists and records -/

namespace Json

variable {style : Style} {text : String}

/-- A text between brackets begins with the one, and has no blanks around it. -/
theorem trim_bracketed {c d : Char} (hc : Text.isBlank c = false) (hd : Text.isBlank d = false)
    (pieces : List (List Char)) :
    Text.trim (String.ofList (Quoted.bracketed [c] [d] pieces)) =
        String.ofList (Quoted.bracketed [c] [d] pieces) ∧
      ∃ cs, (String.ofList (Quoted.bracketed [c] [d] pieces)).toList = c :: cs :=
  ⟨Text.trim_ofList (Text.trimChars_of_ends hc hd _), _, String.toList_ofList⟩

/-- The JSON text of a list begins with a bracket, and has no blanks around it. -/
theorem exists_of_write_list {items : List Value} (h : write style (.list items) = .ok text) :
    Text.trim text = text ∧ ∃ cs, text.toList = '[' :: cs := by
  obtain ⟨chars, hchars, rfl⟩ := Outcome.map_eq_ok.1 h
  obtain ⟨pieces, -, hchars⟩ := Outcome.bind_eq_ok.1 hchars
  rw [← Outcome.pure_eq_ok.1 hchars]
  exact trim_bracketed (by decide) (by decide) pieces

/-- The JSON text of a record begins with a brace, and has no blanks around it. -/
theorem exists_of_write_record {entries : Record} (h : write style (.record entries) = .ok text) :
    Text.trim text = text ∧ ∃ cs, text.toList = '\x7b' :: cs := by
  obtain ⟨chars, hchars, rfl⟩ := Outcome.map_eq_ok.1 h
  obtain ⟨pieces, -, hchars⟩ := Outcome.bind_eq_ok.1 hchars
  rw [← Outcome.pure_eq_ok.1 hchars]
  exact trim_bracketed (by decide) (by decide) pieces

end Json

namespace Parameters

/-! ## Ways to send a value -/

/-- The names of the parameters that are records. -/
def records : List String := ["filter", "aggregate", "relConditions"]

/-- The names of the parameters that are lists of names. -/
def listsOfNames : List String := ["fields", "searchFields", "groupBy"]

theorem notMem_listsOfNames : ∀ name ∈ records, name ∉ listsOfNames := by
  decide

/-- The value may be sent under the name as a JSON text: it is a record where records are expected,
or a list where lists are. -/
def Encodable (name : String) : Value → Prop
  | .record _ => name ∈ "sort" :: records
  | .list _ => name ∈ "sort" :: listsOfNames
  | _ => False

/-- The texts can be sent with commas between them: they are names without commas and without blanks
around them, and the first one does not look like a list. -/
structure Joinable (names : List String) : Prop where
  /-- There are names. -/
  nonempty : names ≠ []
  /-- None is empty. -/
  nonblank : ∀ name ∈ names, name ≠ ""
  /-- They have no blanks around them. -/
  trimmed : ∀ name ∈ names, Text.trim name = name
  /-- They have no commas. -/
  unsplit : ∀ name ∈ names, ',' ∉ name.toList
  /-- The first one does not begin with a bracket. -/
  unbracketed : ∀ first, names.head? = some first → first.toList.head? ≠ some '['

/-- The value is sent under the name in this form. -/
inductive Sent (name : String) : Value → Value → Prop where
  /-- As it is. -/
  | same (v : Value) : Sent name v v
  /-- As its JSON text, from which it can be read again. -/
  | encoded {v : Value} {text : String} (hname : Encodable name v)
      (hwrite : Json.write .plain v = .ok text) (hread : Json.read text = .ok v) :
    Sent name v (.text text)
  /-- As names with commas between them. -/
  | joined {names : List String} (hname : name ∈ listsOfNames) (hnames : Joinable names) :
    Sent name (.list (names.map .text)) (.text (Text.join "," names))

variable {name text : String} {v sent : Value}

/-! ## What is read from a JSON text -/

theorem decode_of_read (h : Json.read text = .ok v) (name : String) :
    decode name (.text text) = .ok v := by
  rw [decode, h]

/-- A text with a character is given. -/
theorem isMissing_of_cons {c : Char} {cs : List Char} (h : text.toList = c :: cs) :
    isMissing (.text text) = false := by
  rw [isMissing, ← Bool.not_eq_true, String.isEmpty_iff, ← String.toList_eq_nil_iff, h]
  exact List.cons_ne_nil c cs

/-- What was encoded is given and is decoded again, where a record may stand. -/
theorem decode_of_encoded (hname : Encodable name v) (hwrite : Json.write .plain v = .ok text)
    (hread : Json.read text = .ok v) :
    (if isMissing (.text text) then .ok .null else decode name (.text text)) =
      if isMissing v then .ok .null else decode name v := by
  cases v with
  | list items =>
      obtain ⟨-, cs, hcs⟩ := Json.exists_of_write_list hwrite
      rw [isMissing_of_cons hcs, decode_of_read hread]
      rfl
  | record entries =>
      obtain ⟨-, cs, hcs⟩ := Json.exists_of_write_record hwrite
      rw [isMissing_of_cons hcs, decode_of_read hread]
      rfl
  | _ => cases hname

/-- A list of names is read from its JSON text. -/
theorem readNames_of_encoded {items : List Value}
    (hwrite : Json.write .plain (.list items) = .ok text)
    (hread : Json.read text = .ok (.list items)) (name : String) :
    readNames name (.text text) = readNames name (.list items) := by
  obtain ⟨htrim, cs, hcs⟩ := Json.exists_of_write_list hwrite
  rw [readNames, isMissing_of_cons hcs]
  simp only [Bool.false_eq_true, if_false, htrim, hcs, List.head?_cons, if_true,
    decode_of_read hread name]
  rfl

/-- An order is read from its JSON text. -/
theorem readSort_of_encoded (hname : Encodable name v) (hwrite : Json.write .plain v = .ok text)
    (hread : Json.read text = .ok v) : readSort (.text text) = readSort v := by
  cases v with
  | list items =>
      obtain ⟨htrim, cs, hcs⟩ := Json.exists_of_write_list hwrite
      simp only [readSort, htrim, hcs, decode_of_read hread]
      rfl
  | record entries =>
      obtain ⟨htrim, cs, hcs⟩ := Json.exists_of_write_record hwrite
      simp only [readSort, htrim, hcs, decode_of_read hread]
      rfl
  | _ => cases hname

/-! ## Names with commas between them -/

/-- A name without a comma is its only part. -/
theorem commaParts_of_notMem (hcomma : ',' ∉ text.toList) (htrim : Text.trim text = text)
    (hne : text ≠ "") : commaParts text = [text] := by
  rw [commaParts, Text.split, Text.splitChars_of_notMem hcomma, List.map_singleton,
    String.ofList_toList, List.map_singleton, htrim]
  exact List.filter_cons_of_pos (by simpa using hne)

variable {names : List String}

/-- Names are read from their list. -/
theorem Joinable.namesOf_eq (hnames : Joinable names) (name : String) :
    namesOf name (names.map .text) = .ok names := by
  obtain ⟨-, hne, htrim, hcomma, -⟩ := hnames
  induction names with
  | nil => rfl
  | cons first rest ih =>
      obtain ⟨hfirst, hrest⟩ := List.forall_mem_cons.1 hne
      obtain ⟨htrim, htrims⟩ := List.forall_mem_cons.1 htrim
      obtain ⟨hcomma, hcommas⟩ := List.forall_mem_cons.1 hcomma
      rw [List.map_cons, namesOf, ih hrest htrims hcommas, commaParts_of_notMem hcomma htrim hfirst]
      rfl

/-- Names are read from the text in which they stand with commas between them. -/
theorem Joinable.commaParts_eq (hnames : Joinable names) :
    commaParts (Text.trim (Text.join "," names)) = names := by
  have hparts : (Text.split ',' (Text.trim (Text.join "," names))).map Text.trim = names := by
    calc (Text.split ',' (Text.trim (Text.join "," names))).map Text.trim
        = (Text.split ',' (Text.join "," names)).map Text.trim :=
          Text.map_trim_split_trim (by decide) _
      _ = names.map Text.trim :=
          congrArg _ (Text.split_join hnames.nonempty hnames.unsplit)
      _ = names.map id := List.map_congr_left hnames.trimmed
      _ = names := List.map_id names
  rw [commaParts, hparts]
  exact List.filter_eq_self.2 fun name hname => by simpa using hnames.nonblank name hname

/-- Names with commas between them begin with a character that is no bracket, also when they are
trimmed. -/
theorem Joinable.exists_head (hnames : Joinable names) :
    ∃ c cs, (Text.join "," names).toList = c :: cs ∧
      (Text.trim (Text.join "," names)).toList.head? = some c ∧ c ≠ '[' := by
  obtain ⟨hnames, hne, htrim, -, hbracket⟩ := hnames
  obtain ⟨first, rest, rfl⟩ := List.exists_cons_of_ne_nil hnames
  obtain ⟨c, cs, hfirst⟩ :=
    List.exists_cons_of_ne_nil (mt String.toList_eq_nil_iff.1 (hne first List.mem_cons_self))
  -- as the first name is trimmed, no blank stands before this character
  have hc : Text.isBlank c = false := by
    have htrim := congrArg String.toList (htrim first List.mem_cons_self)
    rw [Text.trim, String.toList_ofList, hfirst] at htrim
    exact Text.isBlank_of_trimChars_eq htrim
  obtain ⟨others, hjoin⟩ := Text.exists_join_cons "," first rest
  rw [hfirst, List.cons_append] at hjoin
  refine ⟨c, cs ++ others, hjoin, ?_, ?_⟩
  · rw [Text.trim, String.toList_ofList, hjoin]
    exact Text.head?_trimChars hc _
  · rintro rfl
    exact hbracket first rfl (by rw [hfirst, List.head?_cons])

/-- Names are the same with commas between them and in a list. -/
theorem readNames_joined (hnames : Joinable names) (name : String) :
    readNames name (.text (Text.join "," names)) = readNames name (.list (names.map .text)) := by
  obtain ⟨c, cs, hcs, hhead, hc⟩ := hnames.exists_head
  have htext : readNames name (.text (Text.join "," names)) = .ok (some names) := by
    simp only [readNames, isMissing_of_cons hcs, Bool.false_eq_true, if_false, hhead,
      Option.some.injEq, hc, hnames.commaParts_eq]
  have hlist : readNames name (.list (names.map .text)) = .ok (some names) := by
    simp only [readNames, isMissing, Bool.false_eq_true, if_false, hnames.namesOf_eq]
    rfl
  rw [htext, hlist]

/-! ## What is read from what was sent -/

/-- Parameters that are neither records nor lists of names nor the order are sent as they are. -/
theorem Sent.eq_of_notMem (h : Sent name v sent)
    (hname : name ∉ "sort" :: (records ++ listsOfNames)) : sent = v := by
  simp only [List.mem_cons, List.mem_append, not_or] at hname
  obtain ⟨hsort, hrecord, hlist⟩ := hname
  cases h with
  | same => rfl
  | joined hmem => exact absurd hmem hlist
  | encoded hencodable =>
      cases v with
      | record => exact ((List.mem_cons.1 hencodable).elim hsort hrecord).elim
      | list => exact ((List.mem_cons.1 hencodable).elim hsort hlist).elim
      | _ => cases hencodable

/-- However a record is sent, the same record is decoded. -/
theorem Sent.decodeGiven_eq {given parameters : Record}
    (h : Sent name (given.get name) (parameters.get name)) (hname : name ∈ records) :
    decodeGiven parameters name = decodeGiven given name := by
  rw [decodeGiven, decodeGiven]
  generalize given.get name = v, parameters.get name = sent at h
  cases h with
  | same => rfl
  | joined hlist => exact absurd hlist (notMem_listsOfNames name hname)
  | encoded hencodable hwrite hread => exact decode_of_encoded hencodable hwrite hread

/-- However a list of names is sent, the same names are read. -/
theorem Sent.readNames_eq (h : Sent name v sent) (hname : name ∈ listsOfNames) :
    readNames name sent = readNames name v := by
  cases h with
  | same => rfl
  | joined _ hnames => exact readNames_joined hnames name
  | encoded hencodable hwrite hread =>
      cases v with
      | list => exact readNames_of_encoded hwrite hread name
      | record =>
          -- no list of names is sent as a record
          rcases List.mem_cons.1 hencodable with rfl | hrecord
          · exact absurd hname (by decide)
          · exact absurd hname (notMem_listsOfNames name hrecord)
      | _ => cases hencodable

/-- However an order is sent, the same order is read. -/
theorem Sent.readSort_eq (h : Sent "sort" v sent) : readSort sent = readSort v := by
  cases h with
  | same => rfl
  | joined hlist => exact absurd hlist (by decide)
  | encoded hencodable hwrite hread => exact readSort_of_encoded hencodable hwrite hread

/-- Parameters are sent when they stand under the same names in their order, each in one of the
ways. -/
theorem sent_of_forall₂ {given parameters : Record}
    (h : List.Forall₂ (fun g s => g.1 = s.1 ∧ Sent g.1 g.2 s.2) given parameters) (name : String) :
    Sent name (given.get name) (parameters.get name) := by
  induction h with
  | nil => exact .same .null
  | @cons g s given parameters hhead htail ih =>
      obtain ⟨label, v⟩ := g
      obtain ⟨_, sent⟩ := s
      obtain ⟨rfl, hsent⟩ := hhead
      rw [Record.get, Record.get, Named.find?, Named.find?, List.lookup_cons, List.lookup_cons]
      -- the first entry under the name answers in both records
      cases hname : name == label with
      | true =>
          obtain rfl := eq_of_beq hname
          exact hsent
      | false => exact ih

end Parameters

open Parameters in
/-- **Whichever of its parameters are sent as texts, the same request is read**, or it is turned
down for the same reason: records and the order may stand as their JSON texts, and lists of names as
their JSON texts or with commas between the names. -/
theorem Request.ofParameters_of_sent (collection : String) {given sent : Record}
    (h : ∀ name, Sent name (given.get name) (sent.get name)) (defaultLimit : Int) :
    ofParameters collection sent defaultLimit = ofParameters collection given defaultLimit := by
  have hsame (name : String) (hname : name ∉ "sort" :: (records ++ listsOfNames)) :
      sent.get name = given.get name :=
    (h name).eq_of_notMem hname
  have hrecord (name : String) (hname : name ∈ records) :
      decodeGiven sent name = decodeGiven given name :=
    (h name).decodeGiven_eq hname
  have hnames (name : String) (hname : name ∈ listsOfNames) :
      readNames name (sent.get name) = readNames name (given.get name) :=
    (h name).readNames_eq hname
  rw [ofParameters, ofParameters, readFields, readFields,
    hrecord "filter" (by decide), hrecord "aggregate" (by decide),
    hrecord "relConditions" (by decide), hsame "search" (by decide), hnames "fields" (by decide),
    (h "sort").readSort_eq, hsame "page" (by decide), hsame "limit" (by decide),
    hsame "offset" (by decide), hnames "searchFields" (by decide), hnames "groupBy" (by decide),
    hsame "sortByRelevance" (by decide)]

open Parameters Json in
/-- A filter and an order as JSON texts, and fields with commas between them. -/
theorem Request.ofParameters_of_sent_listing :
    let filter := Value.record [("views", .record [("gt", .int 3)])]
    let sort := Value.list [.text "-views"]
    let given := [("filter", filter), ("sort", sort),
      ("fields", .list (["id", "title"].map .text)), ("limit", .int 5)]
    let sent := [("filter", .text "\x7b\"views\": \x7b\"gt\": 3\x7d\x7d"),
      ("sort", .text "[\"-views\"]"), ("fields", .text (Text.join "," ["id", "title"])),
      ("limit", .int 5)]
    (∀ name, Sent name (Record.get given name) (Record.get sent name)) ∧
      ofParameters "posts" sent 10 = ofParameters "posts" given 10 := by
  intro filter sort given sent
  have hread : Json.read "\x7b\"views\": \x7b\"gt\": 3\x7d\x7d" = .ok filter ∧
      Json.read "[\"-views\"]" = .ok sort := by
    simp [filter, sort, Json.read, skipSpace, readValue, readWord?, words, afterWord?, readMembers,
      readItems, readString, readChars, readNumber, takeWhole?, takeDigits, takeFraction,
      takeExponent, digitLimit, Text.numberOfDigits, Named.ofEntries, Named.insert, bind,
      Except.bind, pure, Except.pure]
  have hfields : Joinable ["id", "title"] := {
    nonempty := by decide
    nonblank := by decide
    trimmed := by decide
    unsplit := by decide
    unbracketed := by rintro _ ⟨⟩; decide }
  have hsent (name : String) : Sent name (Record.get given name) (Record.get sent name) := by
    refine sent_of_forall₂ ?_ name
    refine .cons ⟨rfl, ?filter⟩ <| .cons ⟨rfl, ?sort⟩ <| .cons ⟨rfl, ?fields⟩ <|
      .cons ⟨rfl, .same _⟩ .nil
    case filter => exact .encoded (List.mem_cons_of_mem _ List.mem_cons_self) rfl hread.1
    case sort => exact .encoded List.mem_cons_self rfl hread.2
    case fields => exact .joined List.mem_cons_self hfields
  exact ⟨hsent, ofParameters_of_sent "posts" hsent 10⟩

end Warden
