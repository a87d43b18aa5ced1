import Warden.Proofs.Json.Reading
import Warden.Proofs.Outcome
import Warden.Proofs.Text.Path
import Warden.Query.Parameters

/-! # Requests that cannot be read

Each function that reads a part of a request gives a result or turns the request down as malformed
(**`Reports`**), with two exceptions: a JSON text is given up when a number in it has too many
digits, and an infinite number has no integer. What a parameter must be to run into one of these is
said for each kind of parameter (**`Request.TooLarge`**), and nothing else breaks off the reading of
a request (**`request_read_or_malformed`**). -/

namespace Warden

/-! ## Steps that report what is malformed -/

/-- There is a result, or what was given is turned down as malformed, or else the computation breaks
off for the reason given. -/
def Reports {α : Type} (P : Prop) (x : Outcome α) : Prop :=
  (∀ reason, x = refuse reason → reason.sort = .malformedFilter) ∧
    ∀ defect, x = breakOff defect → P

namespace Reports

variable {α β : Type} {P Q : Prop}

theorem ok (a : α) : Reports P (.ok a) := by
  constructor
  · intro reason h
    cases h
  · intro defect h
    cases h

theorem refuse {reason : Refusal} (h : reason.sort = .malformedFilter) :
    Reports P (Warden.refuse reason : Outcome α) := by
  constructor
  · intro other heq
    cases heq
    exact h
  · intro defect heq
    cases heq

theorem breakOff {defect : Defect} (h : P) :
    Reports P (Warden.breakOff defect : Outcome α) := by
  constructor
  · intro reason heq
    cases heq
  · intro _ _
    exact h

theorem mono {x : Outcome α} (h : Reports P x) (hPQ : P → Q) : Reports Q x :=
  ⟨h.1, fun defect hx => hPQ (h.2 defect hx)⟩

theorem bind {x : Outcome α} {f : α → Outcome β} (hx : Reports P x) (hf : ∀ a, Reports P (f a)) :
    Reports P (x >>= f) := by
  rcases x with (reason | defect) | a
  · exact refuse (hx.1 reason rfl)
  · exact breakOff (hx.2 defect rfl)
  · exact hf a

theorem ite {b : Prop} [Decidable b] {x y : Outcome α} (hx : Reports P x) (hy : Reports P y) :
    Reports P (if b then x else y) := by
  split
  · exact hx
  · exact hy

theorem mapM {f : α → Outcome β} (hf : ∀ a, Reports P (f a)) (as : List α) :
    Reports P (as.mapM f) := by
  induction as with
  | nil => exact ok []
  | cons a as ih =>
      rw [List.mapM_cons]
      exact (hf a).bind fun _ => ih.bind fun _ => ok _

end Reports

variable {P : Prop}

/-! ## Order, aggregates and group keys -/

theorem SortDirection.reports_read (s : String) : Reports P (SortDirection.read s) := by
  unfold SortDirection.read
  dsimp only
  exact .ite (.ok _) (.ite (.ok _) (.refuse rfl))

namespace SortKey

theorem reports_readText (s : String) : Reports P (readText s) := by
  unfold readText
  dsimp only
  split
  · exact .ok _
  · split
    · exact (SortDirection.reports_read _).bind fun _ => .ok _
    · exact .ok _

theorem reports_read (v : Value) : Reports P (read v) := by
  unfold read
  split
  · dsimp only
    split
    · exact .ite (.refuse rfl) ((SortDirection.reports_read _).bind fun _ => .ok _)
    · exact .refuse rfl
  · exact .ite (.refuse rfl) (reports_readText _)
  · exact .refuse rfl

theorem reports_readAll (v : Value) : Reports P (readAll v) := by
  unfold readAll
  split
  · exact .ok _
  · exact .mapM reports_readText _
  · exact .ite ((reports_read _).bind fun _ => .ok _)
      (.mapM (fun _ => (SortDirection.reports_read _).bind fun _ => .ok _) _)
  · exact .mapM reports_read _
  · exact .mapM reports_read _
  · exact .refuse rfl

end SortKey

theorem Aggregate.reports_read (label : String) (v : Value) : Reports P (read label v) := by
  unfold read
  dsimp only
  split
  case h_3 => exact .refuse rfl
  all_goals
    refine Reports.bind (.ok _) fun parts => ?_
    split
    · split
      · exact .ite (.refuse rfl) (.ite (.refuse rfl) (.ok _))
      · exact .refuse rfl
    · exact .refuse rfl

theorem GroupKey.reports_read (v : Value) : Reports P (read v) := by
  unfold read
  split
  · dsimp only
    refine .ite (.refuse rfl) ?_
    split
    · exact .ok _
    · split
      · exact .ok _
      · exact .refuse rfl
  · exact .refuse rfl

/-! ## Parameters -/

namespace Request

/-- The value is too large for a parameter of this name: a JSON text with a number of too many
digits where JSON is read, or an infinite number where an integer is. -/
inductive TooLarge : String → Value → Prop where
  /-- Filters and aggregates are JSON texts. -/
  | json {name s : String} (hname : name ∈ ["filter", "aggregate", "relConditions"])
      (h : Json.read s = .error .tooManyDigits) : TooLarge name (.text s)
  /-- Names are a JSON text if the text begins like a list. -/
  | names {name s : String} (hname : name ∈ ["fields", "searchFields", "groupBy"])
      (hlist : (Text.trim s).toList.head? = some '[')
      (h : Json.read (Text.trim s) = .error .tooManyDigits) : TooLarge name (.text s)
  /-- An order is a JSON text if the text begins like a list or a record. -/
  | sort {s : String} {c : Char} (hc : c = '[' ∨ c = '\x7b')
      (hshape : (Text.trim s).toList.head? = some c) (h : Json.read s = .error .tooManyDigits) :
      TooLarge "sort" (.text s)
  /-- Pages, limits and offsets are integers. -/
  | integer {name : String} {negative : Bool} (hname : name ∈ ["page", "limit", "offset"]) :
      TooLarge name (.float (.infinite negative))

end Request

open Request

namespace Parameters

theorem reports_decode (name : String) (v : Value) :
    Reports (∃ s, v = .text s ∧ Json.read s = .error .tooManyDigits) (decode name v) := by
  unfold decode
  split
  · next s =>
      split
      · exact .ok _
      · exact .refuse rfl
      · next h => exact .breakOff ⟨s, rfl, h⟩
  · exact .ok _

theorem reports_decodeGiven (parameters : Record) {name : String}
    (hname : name ∈ ["filter", "aggregate", "relConditions"]) :
    Reports (TooLarge name (parameters.get name)) (decodeGiven parameters name) := by
  refine .ite (.ok _) ((reports_decode name _).mono ?_)
  rintro ⟨s, hs, h⟩
  rw [hs]
  exact .json hname h

theorem reports_namesOf (name : String) (vs : List Value) : Reports P (namesOf name vs) := by
  induction vs with
  | nil => exact .ok _
  | cons v vs ih =>
      cases v with
      | text s => exact ih.bind fun _ => .ok _
      | _ => exact .refuse rfl

theorem reports_readNames {name : String} (hname : name ∈ ["fields", "searchFields", "groupBy"])
    (v : Value) : Reports (TooLarge name v) (readNames name v) := by
  unfold readNames
  refine .ite (.ok _) ?_
  split
  · next s =>
      dsimp only
      split
      · next hlist =>
          refine ((reports_decode name _).mono ?_).bind fun w => ?_
          · rintro ⟨text, htext, h⟩
            cases htext
            exact .names hname hlist h
          · split
            · exact (reports_namesOf _ _).bind fun _ => .ok _
            · exact .refuse rfl
      · exact .ok _
  · exact (reports_namesOf _ _).bind fun _ => .ok _
  · exact (reports_namesOf _ _).bind fun _ => .ok _
  · exact .refuse rfl

theorem exists_of_extended_eq_infinite {x : Binary64} {negative : Bool}
    (h : x.extended = .infinite negative) : ∃ sign, x = .infinite sign := by
  cases x with
  | infinite sign => exact ⟨sign, rfl⟩
  | nan => cases h
  | finite sign mantissa exponent =>
      rw [Binary64.extended] at h
      split at h <;> cases h

theorem reports_readInteger? {name : String} (hname : name ∈ ["page", "limit", "offset"])
    (v : Value) : Reports (TooLarge name v) (readInteger? name v) := by
  unfold readInteger?
  refine .ite (.ok _) ?_
  split
  · exact .ok _
  · split
    · exact .ok _
    · next h =>
        obtain ⟨sign, rfl⟩ := exists_of_extended_eq_infinite h
        exact .breakOff (.integer hname)
    · exact .refuse rfl
  · split
    · exact .ok _
    · exact .refuse rfl
  · exact .refuse rfl

theorem reports_readSort (v : Value) : Reports (TooLarge "sort" v) (readSort v) := by
  unfold readSort
  split
  · next s =>
      have hdecode {c : Char} {rest : List Char} (hc : c = '[' ∨ c = '\x7b')
          (hs : (Text.trim s).toList = c :: rest) :
          Reports (TooLarge "sort" (.text s)) (decode "sort" (.text s)) := by
        refine (reports_decode _ _).mono ?_
        rintro ⟨text, htext, h⟩
        cases htext
        exact .sort hc (congrArg List.head? hs) h
      split
      · next rest hs => exact (hdecode (.inl rfl) hs).bind SortKey.reports_readAll
      · next rest hs => exact (hdecode (.inr rfl) hs).bind SortKey.reports_readAll
      · exact SortKey.reports_readAll _
  · exact SortKey.reports_readAll _

theorem reports_readRecord (name : String) (v : Value) : Reports P (readRecord name v) := by
  refine .ite ?_ (.ok _)
  split
  · exact .ok _
  · exact .refuse rfl

end Parameters

open Parameters

/-- Only a parameter that is too large breaks off the reading of a request. -/
theorem Request.reports_ofParameters (collection : String) (parameters : Record)
    (defaultLimit : Int) : Reports (∃ name, TooLarge name (parameters.get name))
      (ofParameters collection parameters defaultLimit) := by
  have given {name : String} (hname : name ∈ ["filter", "aggregate", "relConditions"]) :
      Reports (∃ name, TooLarge name (parameters.get name)) (decodeGiven parameters name) :=
    (reports_decodeGiven parameters hname).mono fun h => ⟨name, h⟩
  have names {name : String} (hname : name ∈ ["fields", "searchFields", "groupBy"]) :
      Reports (∃ name, TooLarge name (parameters.get name))
        (readNames name (parameters.get name)) :=
    (reports_readNames hname _).mono fun h => ⟨name, h⟩
  have integer {name : String} (hname : name ∈ ["page", "limit", "offset"]) :
      Reports (∃ name, TooLarge name (parameters.get name))
        (readInteger? name (parameters.get name)) :=
    (reports_readInteger? hname _).mono fun h => ⟨name, h⟩
  unfold ofParameters
  refine (given (by decide)).bind fun filter => (given (by decide)).bind fun aggregate =>
    (given (by decide)).bind fun relConditions => ?_
  cases filter with
  | null | record _ =>
      refine (reports_readRecord _ _).bind fun aggregate =>
        (reports_readRecord _ _).bind fun relConditions => ?_
      cases parameters.get "search" with
      | null | text _ =>
          refine Reports.bind (.ok _) fun search => (names (by decide)).bind fun fields =>
            ((reports_readSort _).mono fun h => ⟨_, h⟩).bind fun sort =>
            (integer (by decide)).bind fun page => (integer (by decide)).bind fun limit =>
            (integer (by decide)).bind fun offset => (names (by decide)).bind fun searchFields =>
            (Reports.mapM (fun (label, v) => ?_) _).bind fun aggregate =>
            (names (by decide)).bind fun groups =>
            (Reports.mapM (fun _ => GroupKey.reports_read _) _).bind fun groupBy => .ok _
          exact (Aggregate.reports_read label v).bind fun _ => .ok _
      | _ => exact .refuse rfl
  | _ => exact .refuse rfl

/-! ## Requests with one parameter -/

variable {name other s : String} {v : Value}

theorem Record.get_singleton : Record.get [(name, v)] name = v := by
  simp [Record.get, Named.find?]

/-- Nothing stands under other names than the one that is given. -/
theorem Record.get_singleton_of_ne (h : other ≠ name) : Record.get [(name, v)] other = .null := by
  have hother : (other == name) = false := by simpa using h
  simp [Record.get, Named.find?, List.lookup_cons, hother]

namespace Parameters

theorem decodeGiven_of_ne (h : other ≠ name) : decodeGiven [(name, v)] other = .ok .null := by
  rw [decodeGiven, Record.get_singleton_of_ne h]
  rfl

theorem readRecord_null : readRecord name .null = .ok [] := rfl

theorem readNames_null : readNames name .null = .ok none := rfl

theorem readInteger?_null : readInteger? name .null = .ok none := rfl

theorem readSort_null : readSort .null = .ok [] := rfl

theorem decode_of_tooManyDigits (h : Json.read s = .error .tooManyDigits) :
    decode name (.text s) = breakOff .invalidValue := by
  simp only [decode, h]

theorem decodeGiven_of_tooManyDigits (h : Json.read s = .error .tooManyDigits) :
    decodeGiven [(name, .text s)] name = breakOff .invalidValue := by
  have hmissing : isMissing (.text s) = false := by
    rw [isMissing, String.isEmpty_eq_false_iff]
    rintro rfl
    cases h
  simp only [decodeGiven, Record.get_singleton, hmissing, decode_of_tooManyDigits h,
    Bool.false_eq_true, if_false]

theorem readNames_of_tooManyDigits (hlist : (Text.trim s).toList.head? = some '[')
    (h : Json.read (Text.trim s) = .error .tooManyDigits) :
    readNames name (.text s) = breakOff .invalidValue := by
  have hmissing : isMissing (.text s) = false := by
    rw [isMissing, String.isEmpty_eq_false_iff]
    rintro rfl
    cases hlist
  simp only [readNames, hmissing, Bool.false_eq_true, if_false, if_pos hlist,
    decode_of_tooManyDigits h]
  rfl

theorem readSort_of_tooManyDigits {c : Char} (hc : c = '[' ∨ c = '\x7b')
    (hshape : (Text.trim s).toList.head? = some c) (h : Json.read s = .error .tooManyDigits) :
    readSort (.text s) = breakOff .invalidValue := by
  obtain ⟨rest, hs⟩ := List.head?_eq_some_iff.1 hshape
  rcases hc with rfl | rfl
  · simp only [readSort, hs, decode_of_tooManyDigits h]
    rfl
  · simp only [readSort, hs, decode_of_tooManyDigits h]
    rfl

end Parameters

/-- A parameter that is too large breaks off the reading of a request that has no other one. -/
theorem Request.TooLarge.breaksOff (h : TooLarge name v) (collection : String)
    (defaultLimit : Int) :
    ∃ defect, ofParameters collection [(name, v)] defaultLimit = breakOff defect := by
  -- all steps before the one that reads the parameter find nothing
  cases h with
  | json hname h =>
      simp only [List.mem_cons, List.not_mem_nil, or_false] at hname
      refine ⟨.invalidValue, ?_⟩
      rcases hname with rfl | rfl | rfl
      all_goals
        rw [ofParameters]
        simp only [decodeGiven_of_ne, decodeGiven_of_tooManyDigits h, Outcome.ok_bind, ne_eq,
          String.reduceEq, not_false_eq_true]
        rfl
  | names hname hlist h =>
      simp only [List.mem_cons, List.not_mem_nil, or_false] at hname
      refine ⟨.invalidValue, ?_⟩
      rcases hname with rfl | rfl | rfl
      all_goals
        rw [ofParameters]
        simp only [decodeGiven_of_ne, Record.get_singleton_of_ne, Record.get_singleton,
          readFields, readRecord_null, readNames_null, readInteger?_null, readSort_null,
          readNames_of_tooManyDigits hlist h, List.mapM_nil, pure_bind, Outcome.ok_bind, ne_eq,
          String.reduceEq, not_false_eq_true]
        rfl
  | sort hc hshape h =>
      refine ⟨.invalidValue, ?_⟩
      rw [ofParameters]
      simp only [decodeGiven_of_ne, Record.get_singleton_of_ne, Record.get_singleton,
        readFields, readRecord_null, readNames_null, readSort_of_tooManyDigits hc hshape h,
        pure_bind, Outcome.ok_bind, ne_eq, String.reduceEq, not_false_eq_true]
      rfl
  | integer hname =>
      simp only [List.mem_cons, List.not_mem_nil, or_false] at hname
      refine ⟨.overflow, ?_⟩
      rcases hname with rfl | rfl | rfl
      · rfl
      · rfl
      · rfl

/-- Nothing is too large where nothing is given. -/
theorem not_tooLarge_null (name : String) : ¬ TooLarge name .null := by
  intro h
  cases h

/-- The text without the blanks at its ends is a part of it. -/
theorem Text.trim_infix (s : String) : (Text.trim s).toList <:+: s.toList := by
  obtain ⟨before, after, hs, -, -⟩ := Text.exists_trimChars s.toList
  rw [Text.trim, String.toList_ofList]
  exact ⟨before, after, (hs.trans (List.append_assoc _ _ _).symm).symm⟩

/-- What is too large is an infinite number or a text with more digits in a row than are read. -/
theorem Request.TooLarge.infinite_or_hasLongRun (h : TooLarge name v) :
     (∃ negative, v = .float (.infinite negative)) ∨
      ∃ s, v = .text s ∧ Json.HasLongRun s.toList := by
  cases h with
  | @json name s hname h | @sort s c hc hshape h =>
      exact .inr ⟨s, rfl, Json.read_too_many_digits h⟩
  | @names name s hname hlist h =>
      obtain ⟨run, hrun, hdigits⟩ := Json.read_too_many_digits h
      exact .inr ⟨s, rfl, run, hrun.trans (Text.trim_infix s), hdigits⟩
  | @integer name negative hname => exact .inl ⟨negative, rfl⟩

/-- **A request is read, or turned down as malformed, or one of its parameters is too large.** Each
value that is too large for its parameter breaks off the reading when it stands alone, and nothing
else does. It is an infinite number or a text with too many digits in a row. -/
theorem request_read_or_malformed (collection : String) (defaultLimit : Int) :
    (∀ parameters : Record,
      (∃ request, Request.ofParameters collection parameters defaultLimit = .ok request) ∨
      (∃ reason, Request.ofParameters collection parameters defaultLimit = refuse reason ∧
        reason.sort = .malformedFilter) ∨
      ∃ defect, Request.ofParameters collection parameters defaultLimit = breakOff defect ∧
        ∃ name, TooLarge name (parameters.get name)) ∧
    ∀ name v, ((∃ defect,
      Request.ofParameters collection [(name, v)] defaultLimit = breakOff defect) ↔
        TooLarge name v) ∧
      (TooLarge name v → (∃ negative, v = .float (.infinite negative)) ∨
        ∃ s, v = .text s ∧ Json.HasLongRun s.toList) := by
  refine ⟨?_, ?_⟩
  · intro parameters
    have h := Request.reports_ofParameters collection parameters defaultLimit
    rcases hresult : Request.ofParameters collection parameters defaultLimit with
      (reason | defect) | request
    · exact .inr (.inl ⟨reason, rfl, h.1 reason hresult⟩)
    · exact .inr (.inr ⟨defect, rfl, h.2 defect hresult⟩)
    · exact .inl ⟨request, rfl⟩
  · intro name v
    refine ⟨⟨?_, fun h => h.breaksOff collection defaultLimit⟩, TooLarge.infinite_or_hasLongRun⟩
    rintro ⟨defect, h⟩
    obtain ⟨other, hother⟩ :=
      (Request.reports_ofParameters collection [(name, v)] defaultLimit).2 defect h
    by_cases hname : other = name
    · subst hname
      rwa [Record.get_singleton] at hother
    · rw [Record.get_singleton_of_ne hname] at hother
      exact absurd hother (not_tooLarge_null other)

/-- An infinite limit is not turned down, nor is a filter that is a number of very many digits. -/
theorem large_parameters_break_off :
    Request.ofParameters "posts" [("limit", .float (.infinite false))] 10 = breakOff .overflow ∧
    ∃ defect, Request.ofParameters "posts"
      [("filter", .text (String.ofList (List.replicate 4301 '1')))] 10 = breakOff defect := by
  refine ⟨rfl, TooLarge.breaksOff (.json (by decide) (Json.read_of_long_integer ?_ ?_ ?_)) _ _⟩
  · intro c hc
    rw [List.eq_of_mem_replicate hc]
    decide
  · rw [List.head?_replicate]
    decide
  · rw [List.length_replicate]
    decide

end Warden
