import Warden.Proofs.Item.Payload
import Warden.Proofs.Item.Writing
import Warden.Proofs.Sample
import Warden.Proofs.Sql.Write

/-! # The grant's own values in written rows

A value that a grant sets stands in the payload, whatever was sent, and from there it goes into the
row. The only thing that can take its place is the key of an item in front of the row, which is put
into its column last of all. So a row is written with the grant's value exactly if its column is not
one for such a key (**`default_wins_iff`**), unless no such row can be written at all; it is not if
a post is created together with its author under a rule that sets the author's key
(`created_post_loses_default`). -/

namespace Warden

namespace Payload

variable {k : Catalog} {p : Payload} {values : Record} {name : String}

/-- Where the row of a payload gets keys, it could as well get one and the same key everywhere. -/
theorem Stores.exists_replaced (h : p.Stores k values) (z : Value)
    (hname : name ∈ keyColumns p.related) :
    ∃ others, p.Stores k others ∧ Sql.Replaced z values others ∧ others.find? name = some z := by
  obtain ⟨keys, hlen, rfl⟩ := h.keys
  have hlen' : (keys.map fun _ => z).length = (keyColumns p.related).length := by
    rw [List.length_map, hlen]
  have hkeys : List.Forall₂ (fun v w => w = v ∨ w = z) keys (keys.map fun _ => z) :=
    List.forall₂_map_right_iff.2 (List.forall₂_same.2 fun _ _ => .inr rfl)
  refine ⟨p.withKeys (keys.map fun _ => z), ⟨h.ready, _, hlen', rfl⟩, ?_, ?_⟩
  · exact (Named.Alike.refl (fun _ => .inl rfl) p.values).putAll (Named.alike_zip _ hkeys)
  · refine Named.find?_putAll_of_mem _ ?_ fun entry hentry => ?_
    · rwa [Named.names_zip hlen']
    · obtain ⟨_, -, hz⟩ := List.mem_map.1 (List.of_mem_zip hentry).2
      exact hz.symm

/-- A value of the payload stands in every row that is written for it iff its column gets no key or
nothing is written. The rows are those that the payload can give and a statement can be made for. -/
theorem find?_rows_iff {Writes : Database → List Command → Record → Prop}
    {statement : Record → Outcome Sql.Change} {w : Value}
    (hwrites : ∀ values, (∃ db past, Writes db past values) ↔
      p.Stores k values ∧ ∃ s, statement values = .ok s)
    (hstatement : ∀ {z values others}, Sql.Writable z → Sql.Replaced z values others →
      (∃ s, statement values = .ok s) → ∃ s, statement others = .ok s)
    (hw : p.values.find? name = some w) :
    (∀ db past values, Writes db past values → values.find? name = some w) ↔
      ((∃ db past values, Writes db past values) → name ∉ keyColumns p.related) := by
  constructor
  · rintro h ⟨db, past, values, hvalues⟩ hname
    obtain ⟨hstores, hs⟩ := (hwrites values).1 ⟨db, past, hvalues⟩
    -- the database replies with a key other than the value
    obtain ⟨z, hz, hwritable⟩ := Sql.exists_writable_ne w
    obtain ⟨others, hothers, hreplaced, hfind⟩ := hstores.exists_replaced z hname
    obtain ⟨db', past', hvalues'⟩ :=
      (hwrites others).2 ⟨hothers, hstatement hwritable hreplaced hs⟩
    have hfind' := h db' past' others hvalues'
    rw [hfind] at hfind'
    exact hz (Option.some.inj hfind')
  · intro h db past values hvalues
    obtain ⟨hstores, -⟩ := (hwrites values).1 ⟨db, past, hvalues⟩
    obtain ⟨keys, -, rfl⟩ := hstores.keys
    rw [find?_withKeys (h ⟨db, past, _, hvalues⟩), hw]

/-- A row with a value of the payload is changed to more than its key. -/
theorem Stores.updatedValues_eq (h : p.Stores k values) {w : Value}
    (hw : p.values.find? name = some w) (c : Collection) (key : Value) :
    Context.updatedValues c key values = values := by
  obtain ⟨keys, -, rfl⟩ := h.keys
  have hne : (p.withKeys keys).isEmpty = false := by
    rw [List.isEmpty_eq_false_iff]
    intro hnil
    -- under the name stands a key or the value of the payload, never nothing
    have hfind := Named.find?_putAll p.values ((keyColumns p.related).zip keys) name
    rw [← withKeys, hnil, hw] at hfind
    exact absurd (Option.or_eq_none_iff.1 hfind.symm).2 (Option.some_ne_none w)
  rw [Context.updatedValues, hne]
  rfl

end Payload

/-- **When the grant's own values win.** What a grant sets for a column has a value when its
variables are replaced. Every row that is added for a new item, and every row that is changed,
whatever the database replies, gets that value iff the column is not one for the key of an item in
front of the row, unless no row is written at all. -/
theorem default_wins_iff (x : Context) (collection name : String) (v : Value) :
    (∀ data grant p, x.grant collection .create = .ok grant →
      x.creation collection data = .ok p →
      (Named.ofEntries grant.defaultValues).find? name = some v →
      ∃ w, x.resolver.resolve v = .ok w ∧
        ((∀ db past values, x.AddsRow collection data db past values →
            values.find? name = some w) ↔
          ((∃ db past values, x.AddsRow collection data db past values) →
            name ∉ Payload.keyColumns p.related))) ∧
    (∀ key data grant r, x.grant collection .update = .ok grant →
      x.change collection key data = .ok r →
      (Named.ofEntries grant.defaultValues).find? name = some v →
      ∃ w, x.resolver.resolve v = .ok w ∧
        ((∀ db past values, x.ChangesRow collection key data db past values →
            values.find? name = some w) ↔
          ((∃ db past values, x.ChangesRow collection key data db past values) →
            name ∉ Payload.keyColumns r.payload.related))) := by
  constructor
  · intro data grant p hgrant hp hv
    obtain ⟨grant', c, hgrant', -, hprepare, -⟩ := Context.creation_eq_ok.1 hp
    cases hgrant.symm.trans hgrant'
    obtain ⟨w, hr, hw⟩ := Payload.find?_of_prepare hprepare hv
    exact ⟨w, hr, Payload.find?_rows_iff (fun _ => Context.exists_addsRow_iff hp)
      Sql.exists_insertRow_of_replaced hw⟩
  · intro key data grant r hgrant hr hv
    obtain ⟨grant', hgrant', hprepare⟩ := Context.prepare_of_change hr
    cases hgrant.symm.trans hgrant'
    obtain ⟨w, hresolve, hw⟩ := Payload.find?_of_prepare hprepare hv
    have hwrites (values : Record) :
        (∃ db past, x.ChangesRow collection key data db past values) ↔
          r.payload.Stores x.catalog values ∧
            ∃ s, Sql.updateRows x.catalog collection r.security.filter values
              r.security.relConditions = .ok s := by
      rw [Context.exists_changesRow_iff hr]
      constructor
      · rintro ⟨stored, hstores, rfl, hs⟩
        rw [hstores.updatedValues_eq hw] at hs ⊢
        exact ⟨hstores, hs⟩
      · rintro ⟨hstores, hs⟩
        exact ⟨values, hstores, (hstores.updatedValues_eq hw _ _).symm, hs⟩
    exact ⟨w, hresolve,
      Payload.find?_rows_iff hwrites Sql.exists_updateRows_of_replaced hw⟩

/-! ## A rule that sets the author -/

namespace Sample

/-- The rule that what editors write becomes their own. -/
def signing (action : Action) : Context :=
  under (rule action .null (.record [("author_id", .text "$CURRENT_USER")]))

/-- What the rule grants. -/
def signingGrant : Grant where
  allowlist := .all
  condition := none
  relConditions := []
  defaultValues := [("author_id", .text "$CURRENT_USER")]
  unrestricted := false
  denied := false

theorem grant_signing_create : (signing .create).grant "posts" .create = .ok signingGrant := by rfl

theorem grant_signing_update : (signing .update).grant "posts" .update = .ok signingGrant := by rfl

theorem resolve_user : resolver.resolve (.text "$CURRENT_USER") = .ok (.text "user-1") := by rfl

/-- A post that is sent together with a new author. -/
def nestedData : Record :=
  [("title", .text "t"), ("author", .record [("name", .text "x")])]

end Sample

/-- A post that is sent in another author's name alone is written in one's own. -/
theorem default_wins_signing :
    (∀ db past values,
      (Sample.signing .create).AddsRow "posts" (.record Sample.foreignData) db past values →
        values.find? "author_id" = some (.text "user-1")) ∧
    ∀ db past values,
      (Sample.signing .update).ChangesRow "posts" "post-1" Sample.foreignData db past values →
        values.find? "author_id" = some (.text "user-1") := by
  constructor
  · obtain ⟨p, hp, hcolumns⟩ : ∃ p, (Sample.signing .create).creation "posts"
        (.record Sample.foreignData) = .ok p ∧ Payload.keyColumns p.related = [] :=
      ⟨_, rfl, rfl⟩
    obtain ⟨w, hw, hwins⟩ := (default_wins_iff (Sample.signing .create) "posts" "author_id"
      (.text "$CURRENT_USER")).1 _ _ p Sample.grant_signing_create hp rfl
    cases Sample.resolve_user.symm.trans hw
    exact hwins.2 fun _ => hcolumns ▸ List.not_mem_nil
  · obtain ⟨r, hr, hcolumns⟩ : ∃ r, (Sample.signing .update).change "posts" "post-1"
        Sample.foreignData = .ok r ∧ Payload.keyColumns r.payload.related = [] :=
      ⟨_, rfl, rfl⟩
    obtain ⟨w, hw, hwins⟩ := (default_wins_iff (Sample.signing .update) "posts" "author_id"
      (.text "$CURRENT_USER")).2 "post-1" _ _ r Sample.grant_signing_update hr rfl
    cases Sample.resolve_user.symm.trans hw
    exact hwins.2 fun _ => hcolumns ▸ List.not_mem_nil

/-- The row of a post that is sent with its author gets the key of the new author in place of the
value that the rule sets. -/
theorem created_post_loses_default :
    ¬ ∀ db past values,
      (Sample.signing .create).AddsRow "posts" (.record Sample.nestedData) db past values →
        values.find? "author_id" = some (.text "user-1") := by
  intro h
  have hp : (Sample.signing .create).creation "posts" (.record Sample.nestedData) =
      .ok (Sample.authored [("title", .text "t"), ("author_id", .text "user-1")]) := by rfl
  obtain ⟨db, past, hadds⟩ := (Context.exists_addsRow_iff hp).2
    ⟨Payload.stores_authored _ (.text "user-2"), _, rfl⟩
  have hfind := h db past _ hadds
  rw [Named.find?_insert_self] at hfind
  exact absurd (Value.text.inj (Option.some.inj hfind)) (by decide)

end Warden
