import Mathlib.Data.Finset.Sort
import Mathlib.Order.Bounds.Basic
import Warden.Proofs.Database.Tables
import Warden.Proofs.Sample
import Warden.Proofs.Value.Equality
import Warden.Proofs.Value.Order
import Warden.Service.Authentication

/-! # The role of a caller

A token names roles in some order, perhaps more than once. They are looked up in order of their
characters, each once, and that order depends on nothing but which names there are
(**`Value.ordered_texts`**). So tokens that name the same roles lead to the same dialogue with the
database, and to the same caller, whatever the database replies.

Where the database answers as the table of roles says, the first name that is found is the least of
those in the table (**`Tables.exists_run_fetchFirst`**, `Tables.isLeast_of_findSome?`). Whether a
caller is an administrator is told by the names alone (**`role_independent_of_token`**). -/

namespace Warden

/-! ## Texts in order -/

namespace Value

theorem isBefore_text (s t : String) : (text s).isBefore (text t) = decide (s < t) := by
  rw [isBefore, (comparesAs_text s t).compare]
  cases h : Ord.compare s t with
  | lt => exact (decide_eq_true (compare_lt_iff_lt.1 h)).symm
  | eq => exact (decide_eq_false (compare_eq_iff_eq.1 h).ge.not_gt).symm
  | gt => exact (decide_eq_false (compare_gt_iff_gt.1 h).le.not_gt).symm

/-- Of texts that are equal one is kept. -/
theorem exists_distinct_texts (texts : List String) :
    ∃ kept : List String, distinct (texts.map text) = kept.map text ∧ kept.Nodup ∧
      kept.toFinset = texts.toFinset := by
  -- the texts kept so far join those still to come
  suffices hfold : ∀ kept : List String, kept.Nodup → ∃ all : List String,
      (texts.map text).foldl (fun seen v => if seen.any (same v) then seen else seen ++ [v])
        (kept.map text) = all.map text ∧ all.Nodup ∧
          all.toFinset = kept.toFinset ∪ texts.toFinset by
    obtain ⟨all, hall, hnodup, hmem⟩ := hfold [] List.nodup_nil
    exact ⟨all, hall, hnodup, by simpa using hmem⟩
  induction texts with
  | nil => exact fun kept hkept => ⟨kept, rfl, hkept, by simp⟩
  | cons s texts ih =>
      intro kept hkept
      have hany : (kept.map text).any (same (text s)) = decide (s ∈ kept) := by
        simp [same_text, List.any_eq]
      rw [List.map_cons, List.foldl_cons, hany]
      by_cases hs : s ∈ kept
      · obtain ⟨all, hall, hnodup, hmem⟩ := ih kept hkept
        refine ⟨all, by simpa [hs] using hall, hnodup, ?_⟩
        rw [hmem, List.toFinset_cons, Finset.union_insert,
          Finset.insert_eq_self.2 (Finset.mem_union_left _ (List.mem_toFinset.2 hs))]
      · have hnew : (kept ++ [s]).Nodup := by
          rw [List.nodup_append]
          simpa [hkept] using fun t ht => ne_of_mem_of_not_mem ht hs
        obtain ⟨all, hall, hnodup, hmem⟩ := ih (kept ++ [s]) hnew
        refine ⟨all, by simpa [hs] using hall, hnodup, ?_⟩
        rw [hmem]
        ext t
        simp

/-- **Texts are put in the order of their characters, each once**: which texts there are is all that
counts. -/
theorem ordered_texts (texts : List String) :
    ordered (texts.map text) = .ok ((texts.toFinset.sort (· ≤ ·)).map text) := by
  obtain ⟨kept, hkept, hnodup, hmem⟩ := exists_distinct_texts texts
  have hhashable : (texts.map text).all hashable = true := by
    simp [hashable]
  have hcomparable : (kept.map text).all (fun a => (kept.map text).all (comparable a)) = true := by
    simp [comparable, (comparesAs_text _ _).compare, Except.toBool]
  have hsorted : kept.mergeSort (fun s t => decide (s ≤ t)) = texts.toFinset.sort (· ≤ ·) := by
    have hperm := List.mergeSort_perm kept fun s t => decide (s ≤ t)
    rw [← hmem, ← List.toFinset_eq_of_perm _ _ hperm]
    exact ((List.toFinset_sort (· ≤ ·) (hperm.nodup_iff.2 hnodup)).2
      (List.pairwise_mergeSort' (· ≤ ·) kept)).symm
  have hmap : (kept.map text).mergeSort (fun a b => !isBefore b a) =
      (kept.mergeSort fun s t => decide (s ≤ t)).map text := by
    refine (List.map_mergeSort fun s _ t _ => ?_).symm
    rw [isBefore_text, ← decide_not]
    exact decide_eq_decide.2 not_lt.symm
  rw [ordered, hkept]
  simp only [hhashable, hcomparable, Bool.and_self, if_true, hmap, hsorted]

end Value

/-! ## Roles in a table -/

namespace Tables

variable {t : Tables} {past : List Command}

/-- The role with a name, the first one if there are several. -/
def roleNamed? (t : Tables) (name : String) : Option Role :=
  t.roles.find? (·.name = name)

theorem run_fetchNamed? (name : String) : (Role.fetchNamed? (.text name)).run t.database past =
    (.execute (.roleNamed (.text name)) :: past, .ok (t.roleNamed? name)) := by
  have hrows : t.rows (t.ledger past).working (.roleNamed (.text name)) =
      (t.roles.filter fun r => decide (r.name = name)).map Role.toRow := by
    simp only [rows, Value.text?, Option.some.injEq, eq_comm]
  rw [Role.fetchNamed?, Dialogue.run_bind_of_ok _ (run_execute _), hrows, Role.ofFirst?_toRow,
    List.head?_filter, roleNamed?]
  rfl

/-- All names are looked up, one after another. -/
theorem exists_run_fetchKnown (names : List String) (past : List Command) :
    ∃ said, (Role.fetchKnown (names.map .text)).run t.database past =
      (said, .ok (names.filterMap t.roleNamed?)) := by
  induction names generalizing past with
  | nil => exact ⟨past, rfl⟩
  | cons name names ih =>
      rw [List.map_cons, Role.fetchKnown, Dialogue.run_bind_of_ok _ (run_fetchNamed? name)]
      obtain ⟨said, hsaid⟩ := ih (.execute (.roleNamed (.text name)) :: past)
      cases hrole : t.roleNamed? name with
      | none =>
          rw [List.filterMap_cons_none hrole]
          exact ⟨said, hsaid⟩
      | some role =>
          rw [List.filterMap_cons_some hrole]
          exact ⟨said, by rw [Dialogue.run_bind_of_ok _ hsaid]; rfl⟩

/-- The first role found is the one of the first name, in order, that is in the table. -/
theorem exists_run_fetchFirst (t : Tables) (names : List String) (past : List Command) :
    ∃ said, (Role.fetchFirst (names.map .text)).run t.database past =
      (said, .ok ((names.toFinset.sort (· ≤ ·)).findSome? t.roleNamed?)) := by
  have hknown : ∃ said, (Role.fetchKnown ((names.toFinset.sort (· ≤ ·)).map .text)).run t.database
      (.connect :: past) = (said, .ok ((names.toFinset.sort (· ≤ ·)).filterMap t.roleNamed?)) :=
    exists_run_fetchKnown _ _
  obtain ⟨said, hsaid⟩ := hknown
  have hlookUp : (do Role.fetchKnown (← Outcome.ofDefect (Value.ordered (names.map .text))) :
      Dialogue (List Role)) = Role.fetchKnown ((names.toFinset.sort (· ≤ ·)).map .text) := by
    rw [Value.ordered_texts]
    rfl
  have htransaction : (Role.fetchKnown ((names.toFinset.sort (· ≤ ·)).map .text)).transaction.run
      t.database past = (.release :: .commit :: said,
        .ok ((names.toFinset.sort (· ≤ ·)).filterMap t.roleNamed?)) := by
    rw [run_transaction, hsaid]
  rw [Role.fetchFirst, hlookUp, Dialogue.run_bind_of_ok _ htransaction, ← List.head?_filterMap]
  exact ⟨_, rfl⟩

variable {names : Finset String} {role : Role}

/-- A role that is found under the first of some names in order has the least name of those that are
in the table. -/
theorem isLeast_of_findSome? (h : (names.sort (· ≤ ·)).findSome? t.roleNamed? = some role) :
    role ∈ t.roles ∧ IsLeast {name | name ∈ names ∧ ∃ r ∈ t.roles, r.name = name} role.name := by
  obtain ⟨before, name, after, hsort, hrole, hbefore⟩ := List.findSome?_eq_some_iff.1 h
  rw [roleNamed?] at hrole
  have hmem : role ∈ t.roles := List.mem_of_find?_eq_some hrole
  obtain rfl : role.name = name := by simpa using List.find?_some hrole
  refine ⟨hmem, ⟨?_, role, hmem, rfl⟩, ?_⟩
  · rw [← Finset.mem_sort (· ≤ ·), hsort]
    exact List.mem_append_right _ List.mem_cons_self
  · rintro other ⟨hother, r, hr, rfl⟩
    have hordered := names.pairwise_sort (· ≤ ·)
    rw [hsort] at hordered
    rw [← Finset.mem_sort (· ≤ ·), hsort] at hother
    rcases List.mem_append.1 hother with hother | hother
    · -- a name that is in the table would have been found first
      have hnone := List.find?_eq_none.1 (hbefore _ hother) r hr
      exact absurd (decide_eq_true rfl) hnone
    · rcases List.mem_cons.1 hother with heq | hafter
      · exact heq.ge
      · exact (List.pairwise_cons.1 (List.pairwise_append.1 hordered).2.1).1 _ hafter

/-- No role is found iff none of the names is in the table. -/
theorem findSome?_eq_none_iff :
    (names.sort (· ≤ ·)).findSome? t.roleNamed? = none ↔ ∀ r ∈ t.roles, r.name ∉ names := by
  simp only [List.findSome?_eq_none_iff, Finset.mem_sort, roleNamed?, List.find?_eq_none,
    decide_eq_true_eq]
  exact ⟨fun h r hr hname => h _ hname r hr rfl, fun h name hname r hr heq => h r hr (heq ▸ hname)⟩

end Tables

/-! ## Tokens -/

/-- What stands under a name that does not count is left out as before. -/
theorem Named.filter_insert {α : Type} (counts : String → Bool) {name : String}
    (h : counts name = false) (r : Named α) (a : α) :
    (r.insert name a).filter (fun entry => counts entry.1) =
      r.filter fun entry => counts entry.1 := by
  induction r with
  | nil => simp [insert, h]
  | cons entry r ih =>
      obtain ⟨other, b⟩ := entry
      by_cases hname : other = name
      · simp [insert, hname, h]
      · simp [insert, hname, List.filter_cons, ih]

/-- A request that is sent with a token. -/
def Credentials.bearing (path token : String) (address : Option String) : Credentials :=
  ⟨path, some (bearerMark ++ token), address⟩

theorem bearerToken?_bearing (token : String) :
    bearerToken? (some (bearerMark ++ token)) = some token := by
  simp [bearerToken?, String.ofList_toList]

/-- The claims with the names of the user's roles. -/
def Record.namingRoles (claims : Record) (names : List String) : Record :=
  Named.insert claims "realm_access" (.record [("roles", .list (names.map .text))])

namespace TokenUser

/-- The user with these names of roles. -/
def inRoles (u : TokenUser) (names : List String) : TokenUser :=
  { u with roles := names.map .text }

/-- Nothing but the roles is read from where the roles stand, unless the tenant is. -/
theorem exists_read_namingRoles {tenantClaim : String} {claims : Record}
    (hactive : (claims.get "active").truthy = true) (htenant : tenantClaim ≠ "realm_access") :
    ∃ u : TokenUser, ∀ names,
      read tenantClaim (.record (claims.namingRoles names)) = .ok (some (u.inRoles names)) := by
  have hfind (names : List String) (name : String) (hname : name ≠ "realm_access") :
      Named.find? (claims.namingRoles names) name = Named.find? claims name :=
    Named.find?_insert_of_ne claims _ hname
  have hget (names : List String) (name : String) (hname : name ≠ "realm_access") :
      (claims.namingRoles names).get name = claims.get name := by
    rw [Record.get, Record.get, hfind names name hname]
  have hroles (names : List String) :
      readRoles (claims.namingRoles names) = .ok (names.map .text) := by
    rw [readRoles, Record.namingRoles, Named.find?_insert_self]
    rfl
  have hothers (names : List String) :
      List.filter (fun entry => !tokenClaims.contains entry.1) (claims.namingRoles names) =
        List.filter (fun entry => !tokenClaims.contains entry.1) claims :=
    Named.filter_insert (fun name => !tokenClaims.contains name) (by decide) claims _
  refine ⟨⟨(Named.find? claims "sub").getD (.text ""), claims.get "email",
    claims.get "preferred_username", [],
    if (claims.get tenantClaim).isNull then none else some (claims.get tenantClaim).display,
    List.filter (fun entry => !tokenClaims.contains entry.1) claims⟩, fun names => ?_⟩
  simp only [read, hget names tenantClaim htenant, hget names "active" (by decide),
    hget names "email" (by decide), hget names "preferred_username" (by decide),
    hfind names "sub" (by decide), hactive, hroles, hothers]
  rfl

/-- A caller is an administrator iff the names say so. -/
theorem isAdmin_caller_iff {u : TokenUser} {names : List String} {adminRole : String}
    {role : Option Role} {address : Option String} :
    ((u.inRoles names).caller adminRole role address).isAdmin = true ↔ adminRole ∈ names := by
  simp [caller, Caller.isAdmin, inRoles, Value.same_text]

end TokenUser

namespace Service

variable {s : Service} {look : Option Introspection} {path token : String}
  {address : Option String} {u : TokenUser}

/-- The caller of a valid token is its user, in the first role that is found. -/
theorem authenticate_bearing (hpath : healthPath.toList.isPrefixOf path.toList = false)
    (h : s.tokenUser look token = .ok (some u)) :
    s.authenticate look (.bearing path token address) = (do
      let role ← Role.fetchFirst u.roles
      return some (some (u.caller s.settings.adminRole role address))) := by
  rw [authenticate, Credentials.bearing]
  simp only [hpath, bearerToken?_bearing, h]
  rfl

end Service

/-- **The caller does not depend on how a token lists roles.** Two tokens of one user that name the
same roles, in whatever order and however often, lead to the same dialogue with the database, so to
the same caller, whatever it replies. Where it answers as a table of roles says, the caller's role
is the one with the least name of those in the table, and there is none if none of them is. The
caller is an administrator iff the role of administrators is among the names, in the table or not.
Claims that differ in the names of roles alone are such tokens, unless the tenant is read from the
roles. -/
theorem role_independent_of_token (s : Service) (u : TokenUser) {names others : List String}
    (hnames : ∀ name, name ∈ names ↔ name ∈ others) {look look' : Option Introspection}
    {token token' : String} (h : s.tokenUser look token = .ok (some (u.inRoles names)))
    (h' : s.tokenUser look' token' = .ok (some (u.inRoles others))) (path : String)
    (address : Option String) :
    s.authenticate look (.bearing path token address) =
      s.authenticate look' (.bearing path token' address) ∧
    (healthPath.toList.isPrefixOf path.toList = false → ∀ (t : Tables) past, ∃ role,
      ((s.authenticate look (.bearing path token address)).run t.database past).2 =
        .ok (some (some ((u.inRoles names).caller s.settings.adminRole role address))) ∧
      (∀ r, role = some r → r ∈ t.roles ∧
        IsLeast {name | name ∈ names ∧ ∃ r ∈ t.roles, r.name = name} r.name) ∧
      (role = none ↔ ∀ r ∈ t.roles, r.name ∉ names) ∧
      (((u.inRoles names).caller s.settings.adminRole role address).isAdmin = true ↔
        s.settings.adminRole ∈ names)) ∧
    ∀ claims : Record, (claims.get "active").truthy = true →
      s.settings.tenantClaim ≠ "realm_access" → ∃ v : TokenUser, ∀ roles,
        TokenUser.read s.settings.tenantClaim (.record (claims.namingRoles roles)) =
          .ok (some (v.inRoles roles)) := by
  refine ⟨?_, ?_, fun claims => TokenUser.exists_read_namingRoles⟩
  · by_cases hpath : healthPath.toList.isPrefixOf path.toList = true
    · simp only [Service.authenticate, Credentials.bearing, hpath, if_true]
    · have hpath := Bool.eq_false_iff.2 hpath
      have hfetch : Role.fetchFirst (u.inRoles names).roles =
          Role.fetchFirst (u.inRoles others).roles := by
        simp only [TokenUser.inRoles, Role.fetchFirst, Value.ordered_texts,
          List.toFinset.ext hnames]
      have hcaller (role : Option Role) :
          (u.inRoles names).caller s.settings.adminRole role address =
            (u.inRoles others).caller s.settings.adminRole role address := by
        have hadmin : ((u.inRoles names).roles.any (Value.same (.text s.settings.adminRole))) =
            (u.inRoles others).roles.any (Value.same (.text s.settings.adminRole)) := by
          simp [TokenUser.inRoles, Value.same_text, List.any_eq, hnames]
        unfold TokenUser.caller
        rw [hadmin]
        rfl
      rw [Service.authenticate_bearing hpath h, Service.authenticate_bearing hpath h', hfetch]
      simp only [hcaller]
  · intro hpath t past
    refine ⟨(names.toFinset.sort (· ≤ ·)).findSome? t.roleNamed?, ?_, ?_, ?_,
      TokenUser.isAdmin_caller_iff⟩
    · obtain ⟨said, hsaid⟩ := t.exists_run_fetchFirst names past
      have hroles : (u.inRoles names).roles = names.map .text := rfl
      rw [Service.authenticate_bearing hpath h, hroles, Dialogue.run_bind_of_ok _ hsaid]
      rfl
    · intro r hr
      simpa using Tables.isLeast_of_findSome? hr
    · rw [Tables.findSome?_eq_none_iff]
      simp only [List.mem_toFinset]

/-! ## An editor who can also view -/

namespace Sample

/-- A service in which administrators have a role of their own. -/
def service : Service :=
  Service.initial ⟨7, 10, "public", "administrator", "tenant_Id", ["*"]⟩ ⟨[posts, users]⟩

/-- A user without roles. -/
def member : TokenUser :=
  ⟨.text "user-1", .null, .null, [], none, [("sub", .text "user-1")]⟩

/-- Whatever the token, it is one of the user with these names of roles. -/
def naming (names : List String) : Introspection := fun _ =>
  some (.record (Record.namingRoles [("active", .bool true), ("sub", .text "user-1")] names))

/-- Viewers and editors are known, administrators are not. -/
def knownRoles : Tables where
  roles := [⟨⟨2⟩, "viewer", .null, false⟩, ⟨⟨1⟩, "editor", .null, false⟩]
  rules := []
  arrange := id
  perm := fun _ => .refl _

end Sample

/-- An editor who can also view and administer is an editor and an administrator, however the token
lists the roles. -/
theorem role_independent_of_token_editor :
    (∀ name, name ∈ ["viewer", "administrator", "editor"] ↔
      name ∈ ["editor", "viewer", "editor", "administrator"]) ∧
    Sample.service.tokenUser (some (Sample.naming ["viewer", "administrator", "editor"])) "one" =
      .ok (some (Sample.member.inRoles ["viewer", "administrator", "editor"])) ∧
    Sample.service.tokenUser
        (some (Sample.naming ["editor", "viewer", "editor", "administrator"])) "two" =
      .ok (some (Sample.member.inRoles ["editor", "viewer", "editor", "administrator"])) ∧
    Sample.service.authenticate (some (Sample.naming ["viewer", "administrator", "editor"]))
        (.bearing "/v1/items" "one" none) =
      Sample.service.authenticate
        (some (Sample.naming ["editor", "viewer", "editor", "administrator"]))
        (.bearing "/v1/items" "two" none) ∧
    ∃ role, ((Sample.service.authenticate
        (some (Sample.naming ["viewer", "administrator", "editor"]))
        (.bearing "/v1/items" "one" none)).run Sample.knownRoles.database []).2 =
          .ok (some (some ((Sample.member.inRoles ["viewer", "administrator", "editor"]).caller
            "administrator" (some role) none))) ∧ role.name = "editor" ∧
      ((Sample.member.inRoles ["viewer", "administrator", "editor"]).caller "administrator"
        (some role) none).isAdmin = true := by
  have hnames : ∀ name, name ∈ ["viewer", "administrator", "editor"] ↔
      name ∈ ["editor", "viewer", "editor", "administrator"] := by
    intro name
    simp only [List.mem_cons, List.not_mem_nil, or_false]
    tauto
  have hone : Sample.service.tokenUser
      (some (Sample.naming ["viewer", "administrator", "editor"])) "one" =
        .ok (some (Sample.member.inRoles ["viewer", "administrator", "editor"])) := rfl
  have htwo : Sample.service.tokenUser
      (some (Sample.naming ["editor", "viewer", "editor", "administrator"])) "two" =
        .ok (some (Sample.member.inRoles ["editor", "viewer", "editor", "administrator"])) := rfl
  obtain ⟨hsame, hcaller, -⟩ := role_independent_of_token Sample.service Sample.member hnames
    hone htwo "/v1/items" none
  obtain ⟨role, hrun, hleast, hnone, hadmin⟩ := hcaller (by decide) Sample.knownRoles []
  refine ⟨hnames, hone, htwo, hsame, ?_⟩
  cases role with
  | none =>
      have hno := hnone.1 rfl ⟨⟨1⟩, "editor", .null, false⟩ (by simp [Sample.knownRoles])
      exact absurd hno (by decide)
  | some role =>
      obtain ⟨hmem, -, hlower⟩ := hleast role rfl
      have heditor : role.name ≤ "editor" :=
        hlower ⟨by decide, ⟨⟨1⟩, "editor", .null, false⟩, by simp [Sample.knownRoles], rfl⟩
      refine ⟨role, hrun, ?_, hadmin.2 (by decide)⟩
      -- the other role in the table has a later name
      simp only [Sample.knownRoles, List.mem_cons, List.not_mem_nil, or_false] at hmem
      rcases hmem with rfl | rfl
      · exact absurd heditor (by decide)
      · rfl

end Warden
