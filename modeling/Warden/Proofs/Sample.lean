import Warden.Item.Context
import Warden.Item.Payload

/-! # A small service

Two collections, posts and their authors, a caller with a role, and rules for that role: the data of
the closed statements that show the general ones at work. -/

namespace Warden.Sample

/-- The authors. -/
def users : Collection where
  name := "users"
  table := "users"
  paranoid := false
  fields := [⟨"id", .uuid, true, false⟩, ⟨"name", .string, false, true⟩]
  relations := []

/-- The relation of a post to its author. -/
def author : Relation :=
  ⟨"author", .manyToOne, "users", some "author_id", none, none, none⟩

/-- The posts, each with at most one author. -/
def posts : Collection where
  name := "posts"
  table := "posts"
  paranoid := false
  fields := [⟨"id", .uuid, true, false⟩, ⟨"title", .string, false, true⟩,
    ⟨"author_id", .uuid, false, true⟩]
  relations := [author]

/-- The two collections. -/
def reader : FilterReader :=
  ⟨⟨[posts, users]⟩, 7⟩

/-- An editor. -/
def editor : Caller :=
  ⟨some ⟨.text "user-1", .text "editor", false, []⟩, some ⟨⟨1⟩, "editor", .null, false⟩, none, none⟩

/-- Some noon. -/
def noon : DateTime :=
  ⟨⟨2024, 3, 15⟩, ⟨12, 0, 0, 0⟩, some 0⟩

/-- What the editor's variables stand for. -/
def resolver : Resolver :=
  ⟨editor, noon⟩

/-- What the editor's requests are answered from before any rule is published. -/
def context : Context :=
  ⟨reader, Snapshot.empty, editor, noon⟩

/-- The comments on posts, with the fields that identify them. -/
def comments (keys : List Field) : Collection where
  name := "comments"
  table := "comments"
  paranoid := false
  fields := keys ++ [⟨"body", .text, false, true⟩, ⟨"post_id", .uuid, false, true⟩]
  relations := []

/-- The tags of posts. -/
def tags : Collection where
  name := "tags"
  table := "tags"
  paranoid := false
  fields := [⟨"id", .uuid, true, false⟩, ⟨"label", .string, false, true⟩]
  relations := []

/-- The posts, each with an author, comments and tags. -/
def discussed : Collection :=
  { posts with relations := [author,
      ⟨"comments", .oneToMany, "comments", some "post_id", none, none, none⟩,
      ⟨"tags", .manyToMany, "tags", none, some "posts_tags", some "post_id", some "tag_id"⟩] }

/-- What an administrator's requests about discussed posts are answered from. -/
def blog (keys : List Field) : Context where
  reader := ⟨⟨[discussed, users, comments keys, tags]⟩, 7⟩
  snapshot := Snapshot.empty
  caller := { editor with user := some ⟨.text "user-1", .text "admin", true, []⟩ }
  now := noon

/-- A rule for what editors do with posts, with a condition and values that are set. -/
def rule (action : Action) (conditions defaultValues : Value) : Permission where
  id := ⟨1⟩
  role := ⟨1⟩
  collection := "posts"
  action := action
  fields := .null
  conditions := conditions
  relConditions := .record []
  defaultValues := defaultValues
  createdAt := .null
  updatedAt := .null

/-- What the editor's requests are answered from under one rule. -/
def under (p : Permission) : Context :=
  ⟨reader, Snapshot.empty.publish [p], editor, noon⟩

/-- A post that is written together with a new author. -/
def authored (values : Record) : Payload :=
  ⟨values, [⟨author, "id", [[("name", .text "x")]], []⟩]⟩

/-- A post in another author's name. -/
def foreignData : Record :=
  [("title", .text "t"), ("author_id", .text "user-2")]

/-- The condition that the caller is the author. -/
def ownPost : Filter :=
  .leaf ⟨"author_id", .eq, .text "$CURRENT_USER", none⟩

/-- A rule by which editors reach their own posts, and no post of an author with another name. -/
def ownPosts : Grant where
  allowlist := .all
  condition := some ownPost
  relConditions := [("author", .leaf ⟨"name", .eq, .text "Ada", none⟩)]
  defaultValues := []
  unrestricted := false
  denied := false

/-- A rule by which editors see titles and the names of authors, and nothing else. -/
def titlesOnly : Grant where
  allowlist := ⟨some [["title"], ["author", "name"]]⟩
  condition := none
  relConditions := []
  defaultValues := []
  unrestricted := false
  denied := false

end Warden.Sample
