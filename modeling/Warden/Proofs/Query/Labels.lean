import Mathlib.Data.Option.NAry
import Warden.Proofs.Item.Placeholder
import Warden.Proofs.Query.Columns
import Warden.Proofs.Sql.Lexing

/-! # Per cent signs in labels

The driver that sends a statement reads its whole text for placeholders, also between quotes, and
turns down every per cent sign that belongs to none (**`taken?`**). Of all that a caller chooses,
only the labels of aggregates are written into the text. They stand there as names between double
quotes, and quoting takes care of quotes, not of per cent signs.

**`Fragment.Shows`** says of a part of a statement that it has per cent signs outside of
placeholders in certain labels at most. So every per cent sign of the statement begins a placeholder
iff there is none in these labels (`Shows.bare_iff`), and the driver takes as many values as there
are iff it takes none for any label (`Shows.accepted_iff`). For the statements of a plan this is
**`placeholders_only_iff`**. -/

namespace Warden

namespace Sql

/-! ## What the driver takes -/

/-- How many values the driver takes for a text. Three kinds of placeholders stand for a value each,
two per cent signs stand for one of them, and any other per cent sign is turned down. -/
def taken? : List Char → Option Nat
  | [] => some 0
  | '%' :: '%' :: rest => taken? rest
  | '%' :: c :: rest => if c ∈ ['s', 'b', 't'] then (taken? rest).map (· + 1) else none
  | ['%'] => none
  | _ :: rest => taken? rest

/-- How many values the driver takes for several texts. -/
def takenAll? : List String → Option Nat
  | [] => some 0
  | label :: labels => Option.map₂ (· + ·) (taken? label.toList) (takenAll? labels)

theorem taken?_cons {c : Char} (h : c ≠ '%') (rest : List Char) :
    taken? (c :: rest) = taken? rest := by
  rw [taken?] <;> intros <;> exact absurd ‹c = '%'› h

/-- A text without a per cent sign is passed over. -/
theorem taken?_append {text : List Char} (h : '%' ∉ text) (rest : List Char) :
    taken? (text ++ rest) = taken? rest := by
  induction text with
  | nil => rfl
  | cons c text ih =>
      obtain ⟨hc, htext⟩ := not_or.1 (List.mem_cons.not.1 h)
      rw [List.cons_append, taken?_cons (Ne.symm hc), ih htext]

theorem taken?_of_bare {s : String} (h : Bare s) : taken? s.toList = some 0 := by
  have hpassed := taken?_append h []
  rwa [List.append_nil] at hpassed

/-- A per cent sign takes a value if the right character follows, and is turned down otherwise. -/
theorem taken?_sign {c : Char} (h : c ≠ '%') (rest : List Char) : taken? ('%' :: c :: rest) =
    if c ∈ ['s', 'b', 't'] then (taken? rest).map (· + 1) else none := by
  rw [taken?]
  exact h

/-- A quoted text between double quotes takes what the text takes: doubling quotes adds no per cent
sign, and one at the end of the text meets the closing quote. -/
theorem taken?_quoted (text rest : List Char) :
    taken? (doubledChars '"' text ++ '"' :: rest) =
      Option.map₂ (· + ·) (taken? text) (taken? rest) := by
  unfold doubledChars
  have hquote (chars : List Char) : taken? ('"' :: chars) = taken? chars :=
    taken?_cons (by decide) chars
  induction text using taken?.induct with
  | case1 => simp [hquote, taken?]
  | case2 text ih =>
      simp only [List.flatMap_cons, List.cons_append, List.nil_append,
        show ¬ '%' = '"' by decide, if_false]
      rw [taken?, taken?]
      exact ih
  | case3 c text hc hplaceholder ih =>
      have hquoted : c ≠ '"' := by
        rintro rfl
        exact absurd hplaceholder (by decide)
      simp only [List.flatMap_cons, List.cons_append, List.nil_append,
        show ¬ '%' = '"' by decide, hquoted, if_false]
      rw [taken?_sign hc, taken?_sign hc, if_pos hplaceholder, if_pos hplaceholder, ih,
        Option.map_map₂, Option.map₂_map_left]
      exact congrArg (Option.map₂ · _ _) (funext₂ fun m n => Nat.add_right_comm m n 1)
  | case4 c text hc hplaceholder =>
      -- a quote comes first of two, and is no better than another character
      have hnone (chars : List Char) : taken? ('%' :: c :: chars) = none := by
        rw [taken?_sign hc, if_neg hplaceholder]
      by_cases hquoted : c = '"'
      · simp [List.flatMap_cons, hquoted, hquoted ▸ hnone]
      · simp [List.flatMap_cons, hquoted, hnone]
  | case5 =>
      show taken? ('%' :: '"' :: rest) = none
      rw [taken?_sign (by decide), if_neg (by decide)]
  | case6 c text hsigns hplaceholders hend ih =>
      have hc : c ≠ '%' := by
        rintro rfl
        cases text with
        | nil => exact hend rfl rfl
        | cons d text => exact hplaceholders d text rfl rfl
      rw [taken?_cons hc, ← ih]
      by_cases hquoted : c = '"'
      · simp [List.flatMap_cons, hquoted, hquote]
      · simp [List.flatMap_cons, hquoted, taken?_cons hc]

theorem takenAll?_append (labels others : List String) : takenAll? (labels ++ others) =
    Option.map₂ (· + ·) (takenAll? labels) (takenAll? others) := by
  induction labels with
  | nil => simp [takenAll?]
  | cons label labels ih =>
      rw [List.cons_append, takenAll?, ih, takenAll?]
      exact (Option.map₂_assoc Nat.add_assoc).symm

/-- Nothing is taken for several texts iff nothing is taken for each of them. -/
theorem takenAll?_eq_zero {labels : List String} :
    takenAll? labels = some 0 ↔ ∀ label ∈ labels, taken? label.toList = some 0 := by
  induction labels with
  | nil => simp [takenAll?]
  | cons label labels ih =>
      rw [List.forall_mem_cons, ← ih, takenAll?, Option.map₂_eq_some_iff]
      simp

/-! ## Labels in fragments -/

/-- A name in double quotes has a per cent sign iff the name has one. -/
theorem bare_identifier_iff {name : String} : Bare (identifier name) ↔ Bare name := by
  refine ⟨fun h hmem => h ?_, bare_identifier⟩
  rw [toList_identifier]
  refine List.mem_cons_of_mem _ (List.mem_append_left _ ?_)
  exact List.mem_flatMap.2 ⟨'%', hmem, by simp⟩

namespace Fragment

variable {f g : Fragment} {labels others : List String}

/-- The texts of the fragment have no per cent sign but for these labels, which are written as names
with other texts around them. -/
inductive Shows : Fragment → List String → Prop where
  /-- There is no label. -/
  | bare {f : Fragment} (h : f.Bare) : Shows f []
  /-- There is one. -/
  | label (before label after : String) (hbefore : Sql.Bare before) (hafter : Sql.Bare after) :
      Shows (ofText (before ++ identifier label ++ after)) [label]
  /-- There are those of two fragments. -/
  | append {f g : Fragment} {labels others : List String} (hf : Shows f labels)
      (hg : Shows g others) : Shows (f ++ g) (labels ++ others)

/-- **Every per cent sign begins a placeholder** iff there is none in the labels. -/
theorem Shows.bare_iff (h : f.Shows labels) : f.Bare ↔ ∀ label ∈ labels, Sql.Bare label := by
  induction h with
  | bare h => exact iff_of_true h (List.forall_mem_nil _)
  | label before label after hbefore hafter =>
      rw [bare_ofText, Sql.bare_append, Sql.bare_append, bare_identifier_iff,
        List.forall_mem_singleton]
      exact ⟨fun h => h.1.2, fun h => ⟨⟨hbefore, h⟩, hafter⟩⟩
  | append _ _ hf hg => rw [bare_append, hf, hg, List.forall_mem_append]

/-- The driver takes the values of a fragment without per cent signs. -/
theorem taken?_of_bare (h : f.Bare) (rest : List Char) :
    taken? (f.sql.toList ++ rest) = (taken? rest).map (f.parameters.length + ·) := by
  induction f with
  | nil => simp [parameters]
  | cons piece f ih =>
      have hrest := ih fun s hs => h s (List.mem_cons_of_mem _ hs)
      cases piece with
      | text s =>
          have hsql : (sql (.text s :: f)).toList = s.toList ++ (sql f).toList := by
            simp [sql, pieceText]
          rw [hsql, List.append_assoc, taken?_append (h s List.mem_cons_self), hrest]
          rfl
      | parameter p =>
          have hsql : (sql (.parameter p :: f)).toList = '%' :: 's' :: (sql f).toList := by
            simp [sql, pieceText, placeholder]
          rw [hsql, List.cons_append, List.cons_append, taken?_sign (by decide),
            if_pos (by decide), hrest, Option.map_map]
          have hlength : (parameters (.parameter p :: f)).length = (parameters f).length + 1 := rfl
          rw [hlength]
          exact congrArg (Option.map · _) (funext fun n => Nat.add_right_comm _ n 1)

/-- **The driver takes the values of a fragment and what it takes for the labels.** -/
theorem Shows.taken?_eq (h : f.Shows labels) (rest : List Char) :
    taken? (f.sql.toList ++ rest) = Option.map₂ (· + ·) (takenAll? labels)
      ((taken? rest).map (f.parameters.length + ·)) := by
  induction h generalizing rest with
  | bare h =>
      rw [taken?_of_bare h]
      cases taken? rest <;> simp [takenAll?]
  | label before label after hbefore hafter =>
      have hsql : (sql (ofText (before ++ identifier label ++ after))).toList ++ rest =
          before.toList ++ '"' :: (doubledChars '"' label.toList ++
            '"' :: (after.toList ++ rest)) := by
        simp [toList_identifier]
      rw [hsql, taken?_append hbefore, taken?_cons (by decide), taken?_quoted,
        taken?_append hafter, takenAll?, takenAll?]
      cases taken? label.toList <;> cases taken? rest <;> simp
  | @append f g labels others _ _ hf hg =>
      rw [sql_append, String.toList_append, List.append_assoc, hf, hg, takenAll?_append,
        parameters_append, List.length_append]
      cases takenAll? labels <;> cases takenAll? others <;> cases taken? rest <;>
        simp [Nat.add_assoc, Nat.add_left_comm]

/-- **The driver takes just the values of a fragment** iff it takes none for the labels. -/
theorem Shows.accepted_iff (h : f.Shows labels) :
    taken? f.sql.toList = some f.parameters.length ↔
      ∀ label ∈ labels, taken? label.toList = some 0 := by
  have htaken := h.taken?_eq []
  rw [List.append_nil] at htaken
  rw [← takenAll?_eq_zero, htaken]
  cases takenAll? labels <;> simp [taken?]

/-- Fragments that show a label each show all of them when they are joined. -/
theorem Shows.joined {α : Type} {separator : String} {as : List α} {write : α → Fragment}
    {label : α → String} (hseparator : Sql.Bare separator)
    (h : ∀ a ∈ as, (write a).Shows [label a]) :
    (joined separator (as.map write)).Shows (as.map label) := by
  induction as with
  | nil => exact .bare bare_nil
  | cons a as ih =>
      obtain ⟨ha, has⟩ := List.forall_mem_cons.1 h
      have hrest := ih has
      cases as with
      | nil => simpa using ha
      | cons b as =>
          rw [List.map_cons, List.map_cons, joined_cons_cons, ← List.map_cons]
          exact (ha.append (.bare (bare_ofText.2 hseparator))).append hrest

end Fragment

/-! ## Statements of plans -/

/-- A statement of groups or aggregates shows the labels of its outputs and of its order. -/
theorem shows_select {s : Select} {keys : List SortKey}
    (houtputs : ∀ entry ∈ s.outputs, entry.2.Over Bare) (htable : Bare s.table)
    (hconditions : ∀ q ∈ s.conditions, q.Over Bare) (hgroups : ∀ g ∈ s.groups, Bare g.name)
    (horder : s.order = keys.map fun key => .output key.field key.direction) :
    s.write.Shows (s.outputs.map Prod.fst ++ keys.map SortKey.field) := by
  have hlabelled : ∀ entry ∈ s.outputs, (entry.2.writeLabelled entry.1).Shows [entry.1] := by
    intro entry hentry
    have hname := Fragment.Shows.label " AS " entry.1 "" (by decide) (by decide)
    rw [String.append_empty] at hname
    exact (Fragment.Shows.bare (Output.bare_write (houtputs entry hentry))).append hname
  have hsorted : ∀ key ∈ keys,
      (Order.write (.output key.field key.direction)).Shows [key.field] := by
    intro key _
    have hdirection : Bare (" " ++ directionKeyword key.direction) := by
      cases key.direction <;> decide
    have hname := Fragment.Shows.label "" key.field _ (by decide) hdirection
    rwa [String.empty_append, ← String.append_assoc] at hname
  have hlabels : (Fragment.joined ", "
      (s.outputs.map fun entry => entry.2.writeLabelled entry.1)).Shows
        (s.outputs.map Prod.fst) := .joined (by decide) hlabelled
  have hordered : Fragment.Shows (if s.order.isEmpty then []
      else Fragment.ofText " ORDER BY " ++ Fragment.joined ", " (s.order.map Order.write))
        (keys.map SortKey.field) := by
    rw [horder, List.map_map]
    cases keys with
    | nil => exact .bare Fragment.bare_nil
    | cons key keys =>
        exact .append (.bare (by simp +decide)) (.joined (by decide) hsorted)
  have hlimit : (if 0 ≤ s.limit then Fragment.ofText " LIMIT " ++ Fragment.ofValue (.int s.limit)
      else []).Bare := Fragment.bare_ite (by simp +decide) Fragment.bare_nil
  have hoffset : (if 0 < s.offset then
      Fragment.ofText " OFFSET " ++ Fragment.ofValue (.int s.offset) else []).Bare :=
    Fragment.bare_ite (by simp +decide) Fragment.bare_nil
  have hselect : (Fragment.ofText "SELECT ").Bare := by simp +decide
  have hall := ((((((Fragment.Shows.bare hselect).append hlabels).append
    (.bare (bare_writeBase htable hconditions))).append (.bare (bare_writeGroups hgroups))).append
      hordered).append (.bare hlimit)).append (.bare hoffset)
  simpa [Select.write] using hall

end Sql

open Sql

namespace Plan

/-- The plan with empty labels, and in no order. -/
def unlabelled (p : Plan) : Plan :=
  { p with aggregate := p.aggregate.map fun entry => ("", entry.2), sort := [] }

variable {k : Catalog} {p : Plan}

theorem isAggregate_unlabelled (p : Plan) : p.unlabelled.isAggregate = p.isAggregate := by
  simp [unlabelled, isAggregate]

/-- Labels and order do not matter for the number of rows. -/
theorem count_unlabelled (p : Plan) (k : Catalog) : p.unlabelled.count k = p.count k := by
  unfold count
  rw [isAggregate_unlabelled]
  rfl

/-- The statement of a plan for aggregates shows the labels of the group keys, of the aggregates and
of the order. -/
theorem shows_select (hk : k.Over Bare) (hover : p.unlabelled.Over Bare)
    (hp : p.isAggregate = true) {s : Select} (h : p.select k = .ok s) :
    s.write.Shows ((p.groupBy.map GroupKey.label ++ p.aggregate.names) ++
      p.sort.map SortKey.field) := by
  obtain ⟨c, conditions, m, hc, hconditions, rfl⟩ := select_of_isAggregate hp h
  have hfound := hk.find hc
  have hgroups := over_groupOf hover
  rw [← names_aggregateOutputs]
  refine Sql.shows_select ?_ hfound.tableName (over_conditions hk hfound hover hconditions)
    hgroups rfl
  intro entry hentry
  rcases List.mem_append.1 hentry with hentry | hentry
  · exact (over_aggregateOutputs hover entry (List.mem_append_left _ hentry)).2
  · obtain ⟨⟨label, a⟩, hmem, rfl⟩ := List.mem_map.1 hentry
    have hrelabelled : ("", aggregateOutput a) ∈ p.unlabelled.aggregateOutputs :=
      List.mem_append_right _ (List.mem_map.2 ⟨("", a), List.mem_map.2 ⟨_, hmem, rfl⟩, rfl⟩)
    exact (over_aggregateOutputs hover _ hrelabelled).2

end Plan

namespace Request

variable {r : Request} {reader : FilterReader} {grant : Grant} {resolver : Resolver} {p : Plan}

/-- Without its labels a plan for aggregates has declared names only. -/
theorem over_unlabelled (hk : reader.catalog.Over Bare) (h : r.plan reader grant resolver = .ok p)
    (hp : p.isAggregate = true) : p.unlabelled.Over Bare := by
  cases hd : grant.denied with
  | true =>
      obtain ⟨c, -, rfl⟩ := plan_of_denied hd h
      cases hp
  | false =>
      obtain ⟨c, f, related, hfound, hmade⟩ := made_of_plan hd h
      obtain ⟨hgroups, haggregates, hsearch⟩ := over_made (hk.find hfound) bare_label hmade
      have hkind : p.unlabelled.isAggregate ≠ false := by
        rw [Plan.isAggregate_unlabelled, hp]
        decide
      constructor
      case selection => exact fun hrows => absurd hrows hkind
      case sortColumns => exact fun hrows => absurd hrows hkind
      case sortLabels => exact fun _ => List.forall_mem_nil _
      case search => exact hsearch
      case groups => exact fun key hkey => (hgroups key hkey).1
      case groupLabels => exact fun key hkey => (hgroups key hkey).2
      case aggregates => exact List.forall_mem_map.2 haggregates
      case labels => exact List.forall_mem_map.2 fun _ _ => show Bare "" by decide

/-- What holds of texts without per cent signs holds of all labels in the statement that reads iff
it holds of those of the aggregates. -/
theorem forall_label_iff {Q : String → Prop} (hQ : ∀ label, Bare label → Q label)
    (hover : p.unlabelled.Over Bare) (h : r.plan reader grant resolver = .ok p)
    (hp : p.isAggregate = true) :
    (∀ label ∈ (p.groupBy.map GroupKey.label ++ p.aggregate.names) ++ p.sort.map SortKey.field,
      Q label) ↔ ∀ label ∈ p.aggregate.names, Q label := by
  rw [List.forall_mem_append, List.forall_mem_append]
  have hgroups : ∀ label ∈ p.groupBy.map GroupKey.label, Q label :=
    List.forall_mem_map.2 fun key hkey => hQ _ (hover.groupLabels key hkey)
  refine ⟨fun hall => hall.1.2, fun hnames => ⟨⟨hgroups, hnames⟩, ?_⟩⟩
  refine List.forall_mem_map.2 fun key hkey => ?_
  cases hd : grant.denied with
  | true =>
      obtain ⟨c, -, rfl⟩ := plan_of_denied hd h
      cases hp
  | false =>
      obtain ⟨c, f, related, -, hmade⟩ := made_of_plan hd h
      rcases sort_of_isAggregate hmade (hmade.isAggregate_eq ▸ hp) hkey with hgroup | hname
      · exact hgroups _ hgroup
      · exact hnames _ hname

end Request

/-- **Every per cent sign of a statement begins a placeholder, except in labels.** Take collections
whose names have no per cent sign, and the plan of any request under any grant.

* In the text of the statement that counts, every per cent sign begins the placeholder of a value,
  and the driver takes the statement with just its values.
* In the text of the statement that reads, this is so iff no visible aggregate has a per cent sign
  in its label, and the driver takes it with just its values iff it takes each of these labels, and
  no value for it. -/
theorem placeholders_only_iff {r : Request} {reader : FilterReader} {grant : Grant}
    {resolver : Resolver} {p : Plan} (hk : reader.catalog.Over Bare)
    (h : r.plan reader grant resolver = .ok p) :
    (∀ s, p.count reader.catalog = .ok s →
      s.write.Bare ∧ taken? s.write.sql.toList = some s.write.parameters.length) ∧
    ∀ s, p.select reader.catalog = .ok s →
      (s.write.Bare ↔ ∀ label ∈ p.aggregate.names, Bare label) ∧
      (taken? s.write.sql.toList = some s.write.parameters.length ↔
        ∀ label ∈ p.aggregate.names, taken? label.toList = some 0) := by
  have haccepted {f : Fragment} (hf : f.Bare) :
      taken? f.sql.toList = some f.parameters.length := by
    rw [(Fragment.Shows.bare hf).accepted_iff]
    exact List.forall_mem_nil _
  cases hp : p.isAggregate with
  | false =>
      have hempty : p.aggregate.names = [] := by
        rw [Plan.isAggregate, Bool.or_eq_false_iff] at hp
        rw [Named.names_eq_nil]
        simpa using hp.1
      have hnone {Q : String → Prop} : ∀ label ∈ p.aggregate.names, Q label := by
        rw [hempty]
        exact List.forall_mem_nil _
      have hover := Request.over_plan hk bare_label hnone h
      refine ⟨fun s hs => ?_, fun s hs => ?_⟩
      · have hbare := bare_count (Plan.over_count hk hover hs)
        exact ⟨hbare, haccepted hbare⟩
      · have hbare := bare_select (Plan.over_select hk hover hs)
        exact ⟨iff_of_true hbare hnone, iff_of_true (haccepted hbare) hnone⟩
  | true =>
      have hover := Request.over_unlabelled hk h hp
      refine ⟨fun s hs => ?_, fun s hs => ?_⟩
      · rw [← Plan.count_unlabelled] at hs
        have hbare := bare_count (Plan.over_count hk hover hs)
        exact ⟨hbare, haccepted hbare⟩
      · have hshows := Plan.shows_select hk hover hp hs
        rw [hshows.bare_iff, hshows.accepted_iff]
        exact ⟨Request.forall_label_iff (fun _ => id) hover h hp,
          Request.forall_label_iff (fun _ => taken?_of_bare) hover h hp⟩

/-- The statements for the number of posts by title are taken with just their values. -/
theorem placeholders_only_iff_counted : Sample.reader.catalog.Over Bare ∧
    ∃ p, (Sample.countedBy "n" [⟨"title", none⟩]).plan Sample.reader Grant.admin Sample.resolver =
        .ok p ∧
      (∃ s, p.count Sample.reader.catalog = .ok s ∧ s.write.Bare) ∧
      ∃ s, p.select Sample.reader.catalog = .ok s ∧ s.write.Bare ∧
        taken? s.write.sql.toList = some s.write.parameters.length := by
  obtain ⟨p, hp, hnames, ⟨t, ht⟩, s, hs⟩ : ∃ p,
      (Sample.countedBy "n" [⟨"title", none⟩]).plan Sample.reader Grant.admin Sample.resolver =
        .ok p ∧ p.aggregate.names = ["n"] ∧ (∃ t, p.count Sample.reader.catalog = .ok t) ∧
      ∃ s, p.select Sample.reader.catalog = .ok s :=
    ⟨_, rfl, rfl, ⟨_, rfl⟩, _, rfl⟩
  obtain ⟨hcount, hselect⟩ := placeholders_only_iff Sample.over_bare hp
  obtain ⟨hbare, htaken⟩ := hselect s hs
  rw [hnames, List.forall_mem_singleton] at hbare htaken
  exact ⟨Sample.over_bare, p, hp, ⟨t, ht, (hcount t ht).1⟩, s, hs, hbare.2 (by decide),
    htaken.2 (by decide)⟩

/-- A number of posts that is called by a per cent sign is planned and written, and its statement is
turned down; one that is called by a placeholder asks for values that nobody gives. -/
theorem label_read_as_placeholder :
    (∃ p s, (Sample.countedBy "n%" []).plan Sample.reader Grant.admin Sample.resolver = .ok p ∧
      p.select Sample.reader.catalog = .ok s ∧ ¬ s.write.Bare ∧
      taken? s.write.sql.toList = none) ∧
    ∃ p s, (Sample.countedBy "%s" []).plan Sample.reader Grant.admin Sample.resolver = .ok p ∧
      p.select Sample.reader.catalog = .ok s ∧ ¬ s.write.Bare ∧
      taken? s.write.sql.toList = some 3 ∧ s.write.parameters.length = 1 := by
  refine ⟨⟨_, _, rfl, rfl, fun hbare => ?_, by rfl⟩, _, _, rfl, rfl, fun hbare => ?_, by rfl, rfl⟩
  · exact absurd (hbare " AS \"n%\"" (.tail _ (.tail _ (.head _)))) (by decide)
  · exact absurd (hbare " AS \"%s\"" (.tail _ (.tail _ (.head _)))) (by decide)

end Warden
