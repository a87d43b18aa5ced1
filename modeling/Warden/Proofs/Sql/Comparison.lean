import Warden.Proofs.Sql.Frame
import Warden.Proofs.Sql.Reading

/-! # The readings of tests

Texts are put together piece by piece, and so are their readings (**`Reads`**). Each form of a test
is looked at once: most are one comparison, whatever stands in it, and some are a disjunction of two
or its negation, which they put in parentheses themselves (**`Test.reads_test`**).

The names in a text have no part in this: a quoted name is one token. -/

namespace Warden.Sql

variable {P : String → Prop}

/-! ## Texts and their readings -/

/-- The text is a condition with the reading, wherever a condition may stand. -/
def Reads (s : String) (r : Reading) : Prop :=
  ∃ ts, Lexes s ts ∧ Forms ts r

variable {s t : String} {ts us : List Token} {r : Reading} {rs : List Reading} {parts : List Item}

theorem Reads.not (h : Reads s r) : Reads ("NOT " ++ s) (.neg r) := by
  obtain ⟨ts, hlex, hforms⟩ := h
  have hword : Closed "NOT " [.notWord] := by decide
  exact ⟨.notWord :: ts, hword.append hlex, hforms.not⟩

theorem sql_parenthesized (f : Fragment) :
    (Fragment.parenthesized f).sql = "(" ++ f.sql ++ ")" := by
  simp [Fragment.parenthesized, String.append_assoc]

/-- A text in parentheses is a group. -/
theorem Lexes.parenthesized (h : Lexes s ts) :
    Lexes ("(" ++ s ++ ")") (.opening :: (ts ++ [.closing])) := by
  have hopening : Closed "(" [.opening] := by decide
  have hclosing : Lexes ")" [.closing] := by decide
  rw [String.append_assoc]
  exact hopening.append (h.append hclosing (by decide))

theorem Forms.yields (h : Forms ts r) : Yields ts none r := by
  have hmembers := yields_conjoined (.cons h .nil) (List.cons_ne_nil r [])
  rw [List.intercalate_singleton] at hmembers
  exact hmembers

/-- Parentheses around a condition leave it as it is. -/
theorem Reads.parenthesized (h : Reads s r) : Reads ("(" ++ s ++ ")") r := by
  obtain ⟨ts, hlex, hforms⟩ := h
  exact ⟨_, hlex.parenthesized, hforms.yields.forms⟩

/-- Texts with a separator between them are cut into the texts, and what is known of the tokens of
each is known of its part. -/
theorem lexes_joined {α : Type} {R : List Token → α → Prop} {separator : String} {sep : Token}
    {fs : List Fragment} {as : List α} (hclosed : Closed separator [sep]) (hopens : Opens separator)
    (h : List.Forall₂ (fun f a => ∃ ts, Lexes f.sql ts ∧ R ts a) fs as) :
    ∃ tss, Lexes (Fragment.joined separator fs).sql ([sep].intercalate tss) ∧
      List.Forall₂ R tss as := by
  induction h with
  | nil =>
      have hempty : Lexes "" [] := by decide
      exact ⟨[], hempty, .nil⟩
  | @cons f a fs as hfirst hrest ih =>
      obtain ⟨ts, hlex, hts⟩ := hfirst
      obtain ⟨tss, hlexes, hall⟩ := ih
      refine ⟨ts :: tss, ?_, .cons hts hall⟩
      -- the separator stands behind every text but the last
      cases hrest with
      | nil =>
          cases hall
          rw [Fragment.joined_singleton, List.intercalate_singleton]
          exact hlex
      | cons hsecond hrest =>
          cases hall with
          | cons hsecond' hall =>
              rw [Fragment.joined_cons_cons, List.intercalate_cons_cons, Fragment.sql_append,
                Fragment.sql_append, Fragment.sql_ofText, String.append_assoc, List.append_assoc]
              exact hlex.append (hclosed.append hlexes) (hopens.append _)

theorem closed_and : Closed " AND " [.andWord] := by decide

theorem opens_and : Opens " AND " := by decide

theorem closed_or : Closed " OR " [.orWord] := by decide

theorem opens_or : Opens " OR " := by decide

/-- Two conditions in parentheses with an OR between them. -/
theorem Reads.either {r' : Reading} (h : Reads s r) (h' : Reads t r') :
    Reads ("(" ++ (s ++ (" OR " ++ t)) ++ ")") (.disj [r, r']) := by
  obtain ⟨ts, hlex, hforms⟩ := h
  obtain ⟨us, hlex', hforms'⟩ := h'
  have hlexes : Lexes (s ++ (" OR " ++ t)) (ts ++ .orWord :: us) :=
    hlex.append (closed_or.append hlex') (opens_or.append _)
  have halternatives := yields_disjoined (.cons hforms (.cons hforms' .nil)) (by simp)
  rw [List.intercalate_cons_cons, List.intercalate_singleton, List.append_assoc] at halternatives
  exact ⟨_, hlexes.parenthesized, halternatives.forms⟩

/-! ## Columns and operands -/

/-- A column as tokens. -/
def Column.tokens (c : Column) : List Token :=
  [.word (aliasName c.tableAlias), .mark '.', .name c.name]

/-- The name of a type as tokens. -/
def castTokens (cast : String) : List Token :=
  (Text.split ' ' cast).map .word

/-- An operand as tokens. -/
def Operand.tokens (o : Operand) : List Token :=
  match o.cast with
  | none => o.column.tokens
  | some cast => (.opening :: (o.column.tokens ++ [.closing])) ++ .mark ':' :: .mark ':' ::
      castTokens cast

/-- An operand as a part of a comparison. -/
def Operand.items (o : Operand) : List Item :=
  match o.cast with
  | none => o.column.tokens.map .token
  | some cast => [.group none (.comparison o.column.tokens)] ++
      (Token.mark ':' :: .mark ':' :: castTokens cast).map .token

theorem lexes_column (c : Column) : Lexes c.sql c.tokens := by
  have hdot : Closed "." [.mark '.'] := by decide
  have hrest : Lexes ("." ++ identifier c.name) [.mark '.', .name c.name] :=
    hdot.append (lexes_identifier c.name)
  have hopens : Opens ("." ++ identifier c.name) := Opens.append (by decide) _
  rw [Column.sql, String.append_assoc]
  exact (lexes_aliasName c.tableAlias).append hrest hopens

/-- The known casts are fixed words. -/
theorem lexes_cast {cast : String} (h : (castFamily? cast).isSome = true) :
    Lexes cast (castTokens cast) := by
  obtain ⟨family, hfamily⟩ := Option.isSome_iff_exists.1 h
  obtain ⟨before, after, hcasts, -⟩ := List.lookup_eq_some_iff.1 hfamily
  have hall : ∀ entry ∈ castFamilies, Lexes entry.1 (castTokens entry.1) := by decide
  exact hall (cast, family) (hcasts ▸ List.mem_append_right before List.mem_cons_self)

theorem lexes_operand {o : Operand} (h : o.Over P) : Lexes o.sql o.tokens := by
  unfold Operand.sql Operand.tokens
  cases hcast : o.cast with
  | none => exact lexes_column o.column
  | some cast =>
      have hmarks : Closed "::" [.mark ':', .mark ':'] := by decide
      have hopens : Opens ("::" ++ cast) := Opens.append (by decide) _
      have hsql : "(" ++ o.column.sql ++ ")::" ++ cast =
          "(" ++ o.column.sql ++ ")" ++ ("::" ++ cast) := by
        simp only [String.append_assoc]
        rfl
      show Lexes ("(" ++ o.column.sql ++ ")::" ++ cast) _
      rw [hsql]
      exact (lexes_column o.column).parenthesized.append
        (hmarks.append (lexes_cast (h.cast cast hcast))) hopens

theorem inert_column (c : Column) : Inert c.tokens (c.tokens.map .token) :=
  inert_plain rfl

theorem continues_plain (h : ts.all Token.isPlain = true) : Continues ts (ts.map .token) :=
  (inert_plain h).continues

theorem Inert.comparison (h : Inert ts parts) (hlength : 2 ≤ parts.length) :
    Forms ts (.comparison ts) :=
  h.forms (operandReading_of_tokensOf h.tokens hlength)

theorem inert_operand (o : Operand) : Inert o.tokens o.items := by
  unfold Operand.tokens Operand.items
  have hcolumn := inert_column o.column
  cases o.cast with
  | none => exact hcolumn
  | some cast =>
      have hgroup : Forms o.column.tokens (.comparison o.column.tokens) :=
        hcolumn.comparison (by simp [Column.tokens])
      have htype : (Token.mark ':' :: .mark ':' :: castTokens cast).all Token.isPlain = true := by
        show ((Text.split ' ' cast).map Token.word).all Token.isPlain = true
        rw [List.all_map]
        exact List.all_eq_true.2 fun _ _ => rfl
      exact hgroup.yields.inert.append (inert_plain htype)

theorem length_items (o : Operand) : 3 ≤ o.items.length := by
  unfold Operand.items
  split <;> simp [Column.tokens]

/-- A comparison that begins with an operand. -/
theorem reads_operand {o : Operand} {more : List Item} (ho : o.Over P) (hlex : Lexes t us)
    (hopens : Opens t) (h : Continues us more) :
    Reads (o.sql ++ t) (.comparison (o.tokens ++ us)) := by
  -- an operand has at least three parts, so no group that stands for its condition is among these
  have hlength := length_items o
  refine ⟨_, (lexes_operand ho).append hlex hopens, h.forms (inert_operand o) ?_ ?_⟩
  · rintro hnil
    rw [hnil] at hlength
    simp at hlength
  · rw [List.length_append]
    omega

/-- A comparison with an operand inside. -/
theorem reads_around {o : Operand} {vs : List Token} (ho : o.Over P) (h : Inert vs parts)
    (hlength : 2 ≤ parts.length) (hbefore : Closed s ts) (hafter : Lexes t us) (hopens : Opens t)
    (hvs : vs = ts ++ (o.tokens ++ us)) : Reads (s ++ (o.sql ++ t)) (.comparison vs) := by
  subst hvs
  exact ⟨_, hbefore.append ((lexes_operand ho).append hafter hopens), h.comparison hlength⟩

/-- A function applied to arguments. -/
def call (function : String) (arguments : List Token) : List Token :=
  .word function :: .opening :: (arguments ++ [.closing])

theorem inert_call (function : String) (h : Forms ts (.comparison ts)) :
    Inert (call function ts) [.token (.word function), .group none (.comparison ts)] := by
  have hword : Inert [.word function] [.token (.word function)] :=
    inert_plain rfl
  exact hword.append h.yields.inert

/-! ## Tests -/

/-- A comparison as tokens. -/
def Comparator.tokens : Comparator → List Token
  | .equal => [.mark '=']
  | .distinct => [.word "IS", .word "DISTINCT", .word "FROM"]
  | .greater => [.mark '>']
  | .greaterOrEqual => [.mark '>', .mark '=']
  | .less => [.mark '<']
  | .lessOrEqual => [.mark '<', .mark '=']
  | .like => [.word "LIKE"]
  | .notLike => [.notWord, .word "LIKE"]
  | .ilike => [.word "ILIKE"]
  | .notIlike => [.notWord, .word "ILIKE"]
  | .regex => [.mark '~']
  | .contains => [.mark '@', .mark '>']
  | .overlaps => [.mark '&', .mark '&']
  | .contained => [.mark '<', .mark '@']
  | .hasKey => [.mark '?']

/-- A cast to the type. -/
def castTo (type : String) : List Token :=
  [.mark ':', .mark ':', .word type]

namespace Test

/-- The operand is absent. -/
def absent (o : Operand) : Reading :=
  .comparison (o.tokens ++ [.word "IS", .word "NULL"])

/-- The operand, which is present, is empty. -/
def vacant (kind : Container) (o : Operand) : Reading :=
  match kind with
  | .array => .comparison (call "cardinality" o.tokens ++ [.mark '=', .word "0"])
  | .json => .comparison (o.tokens ++ (castTo "jsonb" ++ .word "IN" :: .opening ::
      (.literal "\x7b\x7d" :: castTo "jsonb" ++ .mark ',' :: .literal "[]" :: castTo "jsonb" ++
        [.closing])))
  | .text => .comparison (o.tokens ++ (castTo "text" ++ [.mark '=', .literal ""]))

/-- A geometry read from its text. -/
def geometryTokens : List Token :=
  call "ST_GeomFromGeoJSON" [.placeholder]

/-- The operand relates to a geometry. -/
def related (s : Spatial) (o : Operand) : Reading :=
  .comparison (call s.function (o.tokens ++ .mark ',' :: geometryTokens))

/-- What a test says. -/
def reading : Test → Reading
  | compare o c _ => .comparison (o.tokens ++ (c.tokens ++ [.placeholder]))
  | isNull o => absent o
  | isNotNull o => .comparison (o.tokens ++ [.word "IS", .notWord, .word "NULL"])
  | anyOf o _ => .comparison (o.tokens ++ .mark '=' :: call "ANY" [.placeholder])
  | noneOf o _ => .disj [absent o,
      .comparison (o.tokens ++ .mark '<' :: .mark '>' :: call "ALL" [.placeholder])]
  | between o _ _ =>
    .comparison (o.tokens ++ [.betweenWord, .placeholder, .andWord, .placeholder])
  | notBetween o _ _ =>
    .comparison (o.tokens ++ [.notWord, .betweenWord, .placeholder, .andWord, .placeholder])
  | empty kind o => .disj [absent o, vacant kind o]
  | notEmpty kind o => .neg (.disj [absent o, vacant kind o])
  | length o _ =>
    .comparison (call "coalesce" (call "cardinality" o.tokens ++ [.mark ',', .word "0"]) ++
      [.mark '=', .placeholder])
  | jsonContains o _ =>
    .comparison (o.tokens ++ .mark '@' :: .mark '>' :: .placeholder :: castTo "jsonb")
  | anyKey o _ =>
    .comparison (o.tokens ++ (.mark '?' :: .mark '|' :: .placeholder :: castTo "text" ++
      [.mark '[', .mark ']']))
  | allKeys o _ =>
    .comparison (o.tokens ++ (.mark '?' :: .mark '&' :: .placeholder :: castTo "text" ++
      [.mark '[', .mark ']']))
  | jsonPath o _ =>
    .comparison (call "jsonb_path_exists" (o.tokens ++ .mark ',' :: .placeholder ::
      castTo "jsonpath"))
  | spatial s o _ => related s o
  | notSpatial s o _ => .neg (related s o)
  | near o _ _ =>
    .comparison (call "ST_DWithin" (o.tokens ++ (castTo "geography" ++ .mark ',' ::
      geometryTokens ++ castTo "geography" ++ [.mark ',', .placeholder])))
  | search c _ =>
    .comparison (c.tokens ++ (castTo "text" ++ [.word "ILIKE", .placeholder]))

variable {o : Operand}

theorem reads_absent (ho : o.Over P) : Reads (o.sql ++ " IS NULL") (absent o) :=
  reads_operand ho (by decide +kernel) (by decide +kernel) (continues_plain rfl)

theorem forms_placeholder : Forms [.placeholder] (.comparison [.placeholder]) :=
  (inert_plain rfl).forms rfl

theorem forms_operand (o : Operand) : Forms o.tokens (.comparison o.tokens) :=
  (inert_operand o).comparison (Nat.le_of_succ_le (length_items o))

/-- The second half of the test for emptiness. -/
def vacantSql (kind : Container) (o : Operand) : String :=
  match kind with
  | .array => "cardinality(" ++ (o.sql ++ ") = 0")
  | .json => o.sql ++ "::jsonb IN ('\x7b\x7d'::jsonb, '[]'::jsonb)"
  | .text => o.sql ++ "::text = ''"

theorem emptySql_eq (kind : Container) (o : Operand) :
    emptySql kind o = "(" ++ (o.sql ++ " IS NULL" ++ (" OR " ++ vacantSql kind o)) ++ ")" := by
  cases kind with
  | array =>
      have hmiddle : " IS NULL OR cardinality(" = " IS NULL" ++ (" OR " ++ "cardinality(") := rfl
      have hend : ") = 0)" = ") = 0" ++ ")" := rfl
      simp only [emptySql, vacantSql, hmiddle, hend, String.append_assoc]
  | json =>
      have hmiddle : " IS NULL OR " = " IS NULL" ++ " OR " := rfl
      have hend : "::jsonb IN ('\x7b\x7d'::jsonb, '[]'::jsonb))" =
          "::jsonb IN ('\x7b\x7d'::jsonb, '[]'::jsonb)" ++ ")" := rfl
      simp only [emptySql, vacantSql, hmiddle, hend, String.append_assoc]
  | text =>
      have hmiddle : " IS NULL OR " = " IS NULL" ++ " OR " := rfl
      have hend : "::text = '')" = "::text = ''" ++ ")" := rfl
      simp only [emptySql, vacantSql, hmiddle, hend, String.append_assoc]

theorem reads_vacant (ho : o.Over P) (kind : Container) :
    Reads (vacantSql kind o) (vacant kind o) := by
  cases kind with
  | array =>
      have hzero : Inert [.mark '=', .word "0"] _ := inert_plain rfl
      have hbefore : Closed "cardinality(" [.word "cardinality", .opening] := by decide +kernel
      have hafter : Lexes ") = 0" [.closing, .mark '=', .word "0"] := by decide +kernel
      exact reads_around ho ((inert_call "cardinality" (forms_operand o)).append hzero) (by simp)
        hbefore hafter (by decide +kernel) (by simp [call])
  | json =>
      have hlist : Forms (.literal "\x7b\x7d" :: castTo "jsonb" ++ .mark ',' :: .literal "[]" ::
          castTo "jsonb") (.comparison (.literal "\x7b\x7d" :: castTo "jsonb" ++ .mark ',' ::
          .literal "[]" :: castTo "jsonb")) := (inert_plain rfl).comparison (by decide)
      have hcast : Inert (castTo "jsonb" ++ [.word "IN"]) _ := inert_plain rfl
      have hinert := hcast.append hlist.yields.inert
      refine reads_operand ho (by decide +kernel) (by decide +kernel) hinert.continues
  | text =>
      exact reads_operand ho (by decide +kernel) (by decide +kernel) (continues_plain rfl)

theorem lexes_comparator (c : Comparator) :
    Lexes (" " ++ c.sql ++ " %s") (c.tokens ++ [.placeholder]) := by
  cases c <;> decide +kernel

/-- A comparison goes on with its comparator, which may begin with a NOT. -/
theorem continues_comparator (c : Comparator) :
    ∃ parts, Continues (c.tokens ++ [.placeholder]) parts := by
  cases c with
  | notLike | notIlike => exact ⟨_, (continues_plain rfl).not⟩
  | _ => exact ⟨_, continues_plain rfl⟩

theorem reads_compare (ho : o.Over P) (c : Comparator) (v : Value) :
    Reads (compare o c v).write.sql (compare o c v).reading := by
  obtain ⟨parts, hcontinues⟩ := continues_comparator c
  have hsql : (compare o c v).write.sql = o.sql ++ (" " ++ c.sql ++ " %s") := sql_behind rfl
  have hopens : Opens (" " ++ c.sql ++ " %s") := ((by decide : Opens " ").append _).append _
  rw [hsql]
  exact reads_operand ho (lexes_comparator c) hopens hcontinues

/-- The two bounds behind a BETWEEN. -/
theorem continues_bounds :
    ∃ parts, Continues [.betweenWord, .placeholder, .andWord, .placeholder] parts := by
  have hbound : Inert [.placeholder] _ := inert_plain rfl
  exact ⟨_, hbound.between hbound⟩

theorem reads_related (ho : o.Over P) (s : Spatial) (geometry : String) :
    Reads (spatialSql s o geometry).sql (related s o) := by
  have hsql : (spatialSql s o geometry).sql =
      s.function ++ "(" ++ (o.sql ++ ", ST_GeomFromGeoJSON(%s))") := by
    simp [spatialSql, geometrySql, Fragment.placeholder, String.append_assoc]
  have hcomma : Inert [.mark ','] _ := inert_plain rfl
  have harguments : Inert (o.tokens ++ .mark ',' :: geometryTokens) _ :=
    (inert_operand o).append (hcomma.append (inert_call "ST_GeomFromGeoJSON" forms_placeholder))
  have hbefore : Closed (s.function ++ "(") [.word s.function, .opening] := by
    cases s <;> decide +kernel
  have hafter : Lexes ", ST_GeomFromGeoJSON(%s))" (.mark ',' :: geometryTokens ++ [.closing]) := by
    decide +kernel
  rw [hsql]
  exact reads_around ho (inert_call s.function (harguments.comparison (by simp))) (by simp)
    hbefore hafter (by decide +kernel) (by simp [call])

theorem sql_noneOf (o : Operand) (vs : List Value) : (noneOf o vs).write.sql =
    "(" ++ (o.sql ++ " IS NULL" ++ (" OR " ++ (o.sql ++ " <> ALL(%s)"))) ++ ")" := by
  have hmiddle : " IS NULL OR " = " IS NULL" ++ " OR " := rfl
  have hend : " <> ALL(" ++ (Fragment.placeholder ++ "))") = " <> ALL(%s)" ++ ")" := rfl
  simp only [write, Fragment.sql_append, Fragment.sql_ofText, Fragment.sql_ofValue, hmiddle,
    hend, String.append_assoc]

theorem reads_noneOf (h : o.Over P) (vs : List Value) :
    Reads (noneOf o vs).write.sql (noneOf o vs).reading := by
  have hdistinct : Inert [.mark '<', .mark '>'] _ := inert_plain rfl
  have hnone : Reads (o.sql ++ " <> ALL(%s)") _ :=
    reads_operand h (by decide +kernel) (by decide +kernel)
      (hdistinct.append (inert_call "ALL" forms_placeholder)).continues
  rw [sql_noneOf]
  exact (reads_absent h).either hnone

theorem reads_length (h : o.Over P) (v : Value) :
    Reads (length o v).write.sql (length o v).reading := by
  have hsql : (length o v).write.sql =
      "coalesce(cardinality(" ++ (o.sql ++ "), 0) = %s") := sql_around rfl
  have harguments : Inert (call "cardinality" o.tokens ++ [.mark ',', .word "0"]) _ :=
    (inert_call "cardinality" (forms_operand o)).append (inert_plain rfl)
  have hvalue : Inert [.mark '=', .placeholder] _ := inert_plain rfl
  have hinert := (inert_call "coalesce" (harguments.comparison (by simp))).append hvalue
  have hbefore : Closed "coalesce(cardinality("
      [.word "coalesce", .opening, .word "cardinality", .opening] := by decide +kernel
  have hafter : Lexes "), 0) = %s"
      [.closing, .mark ',', .word "0", .closing, .mark '=', .placeholder] := by decide +kernel
  rw [hsql]
  exact reads_around h hinert (by simp) hbefore hafter (by decide +kernel) (by simp [call])

theorem reads_jsonPath (h : o.Over P) (path : Value) :
    Reads (jsonPath o path).write.sql (jsonPath o path).reading := by
  have hsql : (jsonPath o path).write.sql =
      "jsonb_path_exists(" ++ (o.sql ++ ", %s::jsonpath)") := sql_around rfl
  have hpath : Inert (.mark ',' :: .placeholder :: castTo "jsonpath") _ :=
    inert_plain rfl
  have harguments := ((inert_operand o).append hpath).comparison (by simp [castTo])
  have hbefore : Closed "jsonb_path_exists(" [.word "jsonb_path_exists", .opening] := by
    decide +kernel
  have hafter : Lexes ", %s::jsonpath)"
      (.mark ',' :: .placeholder :: castTo "jsonpath" ++ [.closing]) := by decide +kernel
  rw [hsql]
  exact reads_around h (inert_call "jsonb_path_exists" harguments) (by simp) hbefore hafter
    (by decide +kernel) (by simp [call])

theorem reads_near (h : o.Over P) (geometry : String) (distance : Value) :
    Reads (near o geometry distance).write.sql (near o geometry distance).reading := by
  have hsql : (near o geometry distance).write.sql = "ST_DWithin(" ++
      (o.sql ++ "::geography, ST_GeomFromGeoJSON(%s)::geography, %s)") := sql_around rfl
  have hcast : Inert (castTo "geography" ++ [.mark ',']) _ := inert_plain rfl
  have hdistance : Inert (castTo "geography" ++ [.mark ',', .placeholder]) _ :=
    inert_plain rfl
  have harguments := (inert_operand o).append
    (hcast.append ((inert_call "ST_GeomFromGeoJSON" forms_placeholder).append hdistance))
  have hbefore : Closed "ST_DWithin(" [.word "ST_DWithin", .opening] := by decide +kernel
  have hafter : Lexes "::geography, ST_GeomFromGeoJSON(%s)::geography, %s)"
      (castTo "geography" ++ .mark ',' :: geometryTokens ++ castTo "geography" ++
        [.mark ',', .placeholder, .closing]) := by decide +kernel
  rw [hsql]
  exact reads_around h (inert_call "ST_DWithin" (harguments.comparison (by simp [castTo])))
    (by simp) hbefore hafter (by decide +kernel) (by simp [call])

/-- **The text of a test says what the test is.** -/
theorem reads_test {t : Test} (h : t.operand.Over P) : Reads t.write.sql t.reading := by
  cases t with
  | compare o c v => exact reads_compare h c v
  | isNull o =>
      have hsql : (isNull o).write.sql = o.sql ++ " IS NULL" := sql_behind rfl
      rw [hsql]
      exact reads_absent h
  | isNotNull o =>
      have hsql : (isNotNull o).write.sql = o.sql ++ " IS NOT NULL" := sql_behind rfl
      have his : Inert [.word "IS"] _ := inert_plain rfl
      have hnull : Continues [.word "NULL"] _ := continues_plain rfl
      rw [hsql]
      exact reads_operand h (by decide +kernel) (by decide +kernel)
        (his.append_continues hnull.not)
  | anyOf o vs =>
      have hsql : (anyOf o vs).write.sql = o.sql ++ " = ANY(%s)" := sql_behind rfl
      have hequal : Inert [.mark '='] _ := inert_plain rfl
      rw [hsql]
      exact reads_operand h (by decide +kernel) (by decide +kernel)
        (hequal.append (inert_call "ANY" forms_placeholder)).continues
  | noneOf o vs => exact reads_noneOf h vs
  | between o low high =>
      have hsql : (between o low high).write.sql = o.sql ++ " BETWEEN %s AND %s" := sql_behind rfl
      obtain ⟨parts, hbounds⟩ := continues_bounds
      rw [hsql]
      exact reads_operand h (by decide +kernel) (by decide +kernel) hbounds
  | notBetween o low high =>
      have hsql : (notBetween o low high).write.sql = o.sql ++ " NOT BETWEEN %s AND %s" :=
        sql_behind rfl
      obtain ⟨parts, hbounds⟩ := continues_bounds
      rw [hsql]
      exact reads_operand h (by decide +kernel) (by decide +kernel) hbounds.not
  | empty kind o =>
      have hsql : (empty kind o).write.sql = emptySql kind o := by simp [write]
      rw [hsql, emptySql_eq]
      exact (reads_absent h).either (reads_vacant h kind)
  | notEmpty kind o =>
      have hsql : (notEmpty kind o).write.sql = "NOT " ++ emptySql kind o := by simp [write]
      rw [hsql, emptySql_eq]
      exact ((reads_absent h).either (reads_vacant h kind)).not
  | length o v => exact reads_length h v
  | jsonContains o v =>
      have hsql : (jsonContains o v).write.sql = o.sql ++ " @> %s::jsonb" := sql_behind rfl
      rw [hsql]
      exact reads_operand h (by decide +kernel) (by decide +kernel) (continues_plain rfl)
  | anyKey o keys =>
      have hsql : (anyKey o keys).write.sql = o.sql ++ " ?| %s::text[]" := sql_behind rfl
      rw [hsql]
      exact reads_operand h (by decide +kernel) (by decide +kernel) (continues_plain rfl)
  | allKeys o keys =>
      have hsql : (allKeys o keys).write.sql = o.sql ++ " ?& %s::text[]" := sql_behind rfl
      rw [hsql]
      exact reads_operand h (by decide +kernel) (by decide +kernel) (continues_plain rfl)
  | jsonPath o path => exact reads_jsonPath h path
  | spatial s o geometry => exact reads_related h s geometry
  | notSpatial s o geometry =>
      have hsql : (notSpatial s o geometry).write.sql =
          "NOT " ++ (spatialSql s o geometry).sql := by
        simp [write]
      rw [hsql]
      exact (reads_related h s geometry).not
  | near o geometry distance => exact reads_near h geometry distance
  | search c pattern =>
      have hsql : (search c pattern).write.sql =
          (Operand.mk c none).sql ++ "::text ILIKE %s" := sql_behind rfl
      rw [hsql]
      exact reads_operand h (by decide +kernel) (by decide +kernel) (continues_plain rfl)

end Test

end Warden.Sql
