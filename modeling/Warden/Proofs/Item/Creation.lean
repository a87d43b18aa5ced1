import Warden.Proofs.Access.Variable
import Warden.Proofs.Filter.Holding
import Warden.Proofs.Item.Writing
import Warden.Proofs.Sample

/-! # What a rule says of created rows

The condition of a rule is checked on the payload of a new item, before anything is written
(`checkCreation_eq_ok`). The keys of the items in front of the row are not known then, and nothing
is checked when they are put into the row. So the row satisfies the condition exactly if no such
keys can break it (**`created_satisfies_rule_iff`**): always if the condition is on other columns or
nothing is created in front of the row, but not if a post is created together with its author under
a rule on the author's key (`created_post_breaks_rule`). -/

namespace Warden

/-! ## The check -/

/-- Only grants from rules have conditions, and those are not unrestricted. -/
theorem Context.unrestricted_of_condition {x : Context} {collection : String} {action : Action}
    {grant : Grant} {rule : Filter} (h : x.grant collection action = .ok grant)
    (hrule : grant.condition = some rule) : grant.unrestricted = false := by
  simp only [Context.grant, Outcome.bind_eq_ok] at h
  obtain ⟨g, hg, h⟩ := h
  have hgrant : g = grant := by
    split at h
    · exact absurd h (Outcome.refuse_ne_ok _ _)
    · exact Outcome.pure_eq_ok.1 h
  subst hgrant
  rw [Snapshot.grant] at hg
  split at hg
  · -- an administrator has no condition
    cases hg
    cases hrule
  · split at hg
    · cases hg
      rfl
    · split at hg
      · cases hg
        rfl
      · simp only [Permission.grant, Outcome.bind_eq_ok, Outcome.pure_eq_ok] at hg
        obtain ⟨_, -, _, -, _, -, _, -, rfl⟩ := hg
        rfl

namespace Context

variable {x : Context} {collection : String} {data : Value} {grant : Grant} {rule : Filter}
  {p : Payload}

/-- The values of a new item pass iff the condition, with its variables replaced, holds of them and
there are no conditions on related rows. -/
theorem checkCreation_eq_ok (hu : grant.unrestricted = false) (hrule : grant.condition = some rule)
    {values : Record} :
    x.checkCreation grant values = .ok () ↔
      (∃ f, x.resolver.resolveFilter rule = .ok f ∧ f.Holds values) ∧ grant.relConditions = [] := by
  have hrelated : (if grant.relConditions.isEmpty = true then pure () else refuse .accessDenied) =
      (.ok () : Outcome Unit) ↔ grant.relConditions = [] := by
    cases grant.relConditions with
    | nil => simp
    | cons => simp
  simp only [checkCreation, hu, hrule, Bool.false_eq_true, if_false, Outcome.bind_eq_ok,
    Outcome.lift_eq_ok]
  constructor
  · rintro ⟨f, hf, b, hb, h⟩
    cases b with
    | false => exact absurd h (Outcome.refuse_ne_ok _ _)
    | true => exact ⟨⟨f, hf, Filter.admits_eq_true.1 hb⟩, hrelated.1 h⟩
  · rintro ⟨⟨f, hf, hholds⟩, hrel⟩
    exact ⟨f, hf, true, Filter.admits_eq_true.2 hholds, hrelated.2 hrel⟩

end Context

/-- **When created rows satisfy the rule.** The condition of the rule holds of the values of a new
item's payload. It holds of the values of every row that is added for the item, whatever the
database replies, iff no keys of the items in front of the row make it fail; so it does if it has no
condition on a column for such a key. -/
theorem created_satisfies_rule_iff {x : Context} {collection : String} {data : Value}
    {grant : Grant} {rule : Filter} {p : Payload}
    (hgrant : x.grant collection .create = .ok grant) (hrule : grant.condition = some rule)
    (hp : x.creation collection data = .ok p) :
    ∃ f, x.resolver.resolveFilter rule = .ok f ∧ f.Holds p.values ∧
      ((∀ db past values, x.AddsRow collection data db past values → f.Holds values) ↔
        ∀ values s, p.Stores x.catalog values →
          Sql.insertRow x.catalog collection values = .ok s → f.Holds values) ∧
      ((∀ c ∈ rule.conditions, c.field ∉ Payload.keyColumns p.related) →
        ∀ db past values, x.AddsRow collection data db past values → f.Holds values) := by
  obtain ⟨grant', c, hgrant', -, -, hcheck⟩ := Context.creation_eq_ok.1 hp
  cases hgrant.symm.trans hgrant'
  have hu := Context.unrestricted_of_condition hgrant hrule
  obtain ⟨⟨f, hf, hholds⟩, -⟩ := (Context.checkCreation_eq_ok hu hrule).1 hcheck
  refine ⟨f, hf, hholds, ⟨?_, ?_⟩, ?_⟩
  · intro h values s hstores hs
    obtain ⟨db, past, hadds⟩ := (Context.exists_addsRow_iff hp).2 ⟨hstores, s, hs⟩
    exact h db past values hadds
  · intro h db past values hadds
    obtain ⟨hstores, s, hs⟩ := (Context.exists_addsRow_iff hp).1 ⟨db, past, hadds⟩
    exact h values s hstores hs
  · intro hfields db past values hadds
    obtain ⟨hstores, -⟩ := (Context.exists_addsRow_iff hp).1 ⟨db, past, hadds⟩
    obtain ⟨keys, -, rfl⟩ := hstores.keys
    rw [Filter.Holds, ← hholds]
    refine Filter.evaluate_congr fun b hb => ?_
    obtain ⟨e, he, hfield⟩ := Resolver.exists_field_of_mem_resolveFilter hf hb
    rw [Record.get, Record.get, hfield, Payload.find?_withKeys (hfields e he)]

/-! ## A rule on the author -/

namespace Sample

/-- The rule that editors create posts of their own. -/
def ownRule : Permission :=
  rule .create (.record [("author_id", .record [("eq", .text "$CURRENT_USER")])]) (.record [])

/-- What the rule grants. -/
def ownGrant : Grant :=
  { ownPosts with relConditions := [] }

theorem grant_ownRule : (under ownRule).grant "posts" .create = .ok ownGrant := by rfl

theorem resolveFilter_ownPost : resolver.resolveFilter ownPost =
    .ok (.leaf ⟨"author_id", .eq, .text "user-1", none⟩) := by rfl

/-- The rule on the author compares the key of the author. -/
theorem evaluate_author {values : Record} {author : String}
    (h : values.get "author_id" = .text author) :
    (Filter.leaf ⟨"author_id", .eq, .text "user-1", none⟩).evaluate values =
      .ok (.ofBool (author == "user-1")) := by
  rw [Filter.evaluate]
  exact Condition.evaluate_text (by rfl) h

/-- The values of an own post pass the check. -/
theorem creation_ownRule {data : Value} {p : Payload}
    (h : Payload.prepare reader.catalog posts ownGrant resolver data = .ok p)
    (hauthor : p.values.get "author_id" = .text "user-1") :
    (under ownRule).creation "posts" data = .ok p := by
  have hcheck : (under ownRule).checkCreation ownGrant p.values = .ok () :=
    (Context.checkCreation_eq_ok rfl rfl).2
      ⟨⟨_, resolveFilter_ownPost, evaluate_author hauthor⟩, rfl⟩
  exact Context.creation_eq_ok.2 ⟨ownGrant, posts, grant_ownRule, rfl, h, hcheck⟩

/-- A post of one's own. -/
def ownData : Record :=
  [("title", .text "t"), ("author_id", .text "user-1")]

/-- A post of one's own that is sent together with a new author. -/
def authoredData : Record :=
  [("title", .text "t"), ("author_id", .text "user-1"), ("author", .record [("name", .text "x")])]

end Sample

/-- Nothing is created in front of a post that is sent alone, so its row satisfies the rule. -/
theorem created_satisfies_rule_ownData :
    ∃ f, Sample.resolver.resolveFilter Sample.ownPost = .ok f ∧
      ∀ db past values,
        (Sample.under Sample.ownRule).AddsRow "posts" (.record Sample.ownData) db past values →
          f.Holds values := by
  have hp : (Sample.under Sample.ownRule).creation "posts" (.record Sample.ownData) =
      .ok ⟨Sample.ownData, []⟩ := Sample.creation_ownRule rfl rfl
  obtain ⟨f, hf, -, -, hrows⟩ := created_satisfies_rule_iff Sample.grant_ownRule rfl hp
  exact ⟨f, hf, hrows fun _ _ => List.not_mem_nil⟩

/-- The row of a post that is sent with its author gets the key of the new author after the check,
and then is not one that the rule allows. -/
theorem created_post_breaks_rule :
    ¬ ∀ db past values,
      (Sample.under Sample.ownRule).AddsRow "posts" (.record Sample.authoredData) db past values →
        ∃ f, Sample.resolver.resolveFilter Sample.ownPost = .ok f ∧ f.Holds values := by
  intro h
  have hp : (Sample.under Sample.ownRule).creation "posts" (.record Sample.authoredData) =
      .ok (Sample.authored Sample.ownData) := Sample.creation_ownRule rfl rfl
  obtain ⟨db, past, hadds⟩ := (Context.exists_addsRow_iff hp).2
    ⟨Payload.stores_authored Sample.ownData (.text "user-2"), _, rfl⟩
  obtain ⟨f, hf, hholds⟩ := h db past _ hadds
  cases Sample.resolveFilter_ownPost.symm.trans hf
  -- the row holds the key of the new author
  have hauthor : Record.get (Sample.ownData.insert "author_id" (.text "user-2")) "author_id" =
      .text "user-2" := by rfl
  rw [Filter.Holds, Sample.evaluate_author hauthor] at hholds
  exact absurd hholds (by decide)

end Warden
