import BabylonHealthDemo.Deliveries

/-! What the database is for: the last posts, and for each key the last user and the
last comments that were recorded under it. A tree store represents such a cache
when every node of the app holds the encoded value or nothing. Each write of the
app carries the representation over, and each read of a represented node answers
with the cached value. -/
namespace BabylonHealthDemo
open JsonTree PathStore Callbacks

structure Cache where
  posts : Option (List Post)
  user : Int64 → Option User
  comments : Int64 → Option (List Comment)

def Cache.empty : Cache := ⟨none,fun _ => none,fun _ => none⟩

/- The keys are those of the recorded values, not those of the call. An empty list
of posts clears its node; an empty list of comments leaves every node as it is. -/
def Cache.record (c : Cache) : NetworkSuccess → Cache
  | .posts list => {c with posts := if list = [] then none else some list}
  | .details _ _ user comments => {c with
      user := Function.update c.user user.userId (some user),
      comments := match comments.head? with
        | none => c.comments
        | some first => Function.update c.comments first.postId (some comments)}

def cacheOf (ds : List (Nat × NetworkSuccess)) : Cache := ds.foldl (fun c d => c.record d.2) .empty

theorem cacheSnoc (ds : List (Nat × NetworkSuccess)) (d : Nat × NetworkSuccess) :
    cacheOf (ds ++ [d]) = (cacheOf ds).record d.2 := by
  simp [cacheOf,List.foldl_append]

def Holds (store : Store σ) (db : σ) (p : Path) (decode : Json → Option α) : Option α → Prop
  | none => store.value p db = none
  | some x => ∃ v, store.value p db = some v ∧ v.isContainer = true ∧ decode v = some x

theorem holdsWritten {store : Store σ} (stores : store.Lawful) {decode : Json → Option α}
    (respects : Respects decode) {p : Path} {v : Json} {x : α} (db : σ) (storable : Storable v)
    (container : v.isContainer = true) (decoded : decode v = some x) :
    Holds store (store.setValue p v db) p decode (some x) := by
  obtain ⟨w,found,same⟩ := stores.written p v db storable
  exact ⟨w,found,sameContainer same ▸ container,respects _ _ same ▸ decoded⟩

theorem holdsApart {store : Store σ} (stores : store.Lawful) {decode : Json → Option α} {p q : Path}
    (apart : Independent p q) (v : Json) {db : σ} {value : Option α}
    (holds : Holds store db q decode value) : Holds store (store.setValue p v db) q decode value := by
  cases value with
  | none => exact (stores.independent p q v db apart).trans holds
  | some x =>
    obtain ⟨w,found,same⟩ := holds
    exact ⟨w,(stores.independent p q v db apart).trans found,same⟩

/- Distinct nodes of the app are never nested. -/
theorem independentHead {a b : String} (different : a ≠ b) (xs ys : Path) :
    Independent (a :: xs) (b :: ys) :=
  ⟨fun h => different (List.cons_prefix_cons.mp h).1,fun h => different (List.cons_prefix_cons.mp h).1.symm⟩

theorem independentChild (a : String) {b c : String} (different : b ≠ c) :
    Independent [a,b] [a,c] :=
  ⟨fun h => different (List.cons_prefix_cons.mp (List.cons_prefix_cons.mp h).2).1,
    fun h => different (List.cons_prefix_cons.mp (List.cons_prefix_cons.mp h).2).1.symm⟩

theorem idString {a b : Int64} (same : toString a = toString b) : a = b :=
  Int64.toInt_inj.mp (Int.repr_injective same)

theorem postsUser (k : Int64) : Independent postsConfiguration.node (userConfiguration k).node :=
  independentHead (show "posts" ≠ "users" by decide) _ _

theorem postsComments (k : Int64) : Independent postsConfiguration.node (commentsConfiguration k).node :=
  independentHead (show "posts" ≠ "comments" by decide) _ _

theorem userComments (j k : Int64) :
    Independent (userConfiguration j).node (commentsConfiguration k).node :=
  independentHead (show "users" ≠ "comments" by decide) _ _

theorem userUser {j k : Int64} (different : j ≠ k) :
    Independent (userConfiguration j).node (userConfiguration k).node :=
  independentChild "users" (fun same => different (idString same))

theorem commentsComments {j k : Int64} (different : j ≠ k) :
    Independent (commentsConfiguration j).node (commentsConfiguration k).node :=
  independentChild "comments" (fun same => different (idString same))

structure Represents (store : Store σ) (db : σ) (c : Cache) : Prop where
  posts : Holds store db postsConfiguration.node (decodeArray Post.decode) c.posts
  user : ∀ k, Holds store db (userConfiguration k).node User.decode (c.user k)
  comments : ∀ k, Holds store db (commentsConfiguration k).node (decodeArray Comment.decode) (c.comments k)

theorem emptyRepresents {store : Store σ} (stores : store.Lawful) :
    Represents store store.empty .empty :=
  ⟨stores.empty _,fun _ => stores.empty _,fun _ => stores.empty _⟩

theorem postsObject {F : Foundation Data} (lawful : F.Lawful) (list : List Post) :
    ∃ object, (NetworkSuccess.posts list).writes F = [⟨postsConfiguration.node,object⟩] ∧
      Same (encodeArray Post.encode list) object := by
  obtain ⟨object,converted,same⟩ := asArraySome lawful (list.map Post.encode)
  refine ⟨object,?_,same⟩
  simp only [NetworkSuccess.writes,writePosts,encodeArray,converted]
  rfl

theorem userObject {F : Foundation Data} (lawful : F.Lawful) (user : User) :
    ∃ object, asDictionary F user.encode = some object ∧ Same user.encode object :=
  asDictionarySome lawful _

theorem detailsWrites {F : Foundation Data} (lawful : F.Lawful) (userId postId : Int64) (user : User)
    (comments : List Comment) :
    ∃ object, Same user.encode object ∧
      match comments.head? with
      | none => (NetworkSuccess.details userId postId user comments).writes F =
          [⟨(userConfiguration user.userId).node,object⟩]
      | some first => ∃ list, Same (encodeArray Comment.encode comments) list ∧
          (NetworkSuccess.details userId postId user comments).writes F =
            [⟨(userConfiguration user.userId).node,object⟩,
              ⟨(commentsConfiguration first.postId).node,list⟩] := by
  obtain ⟨object,converted,same⟩ := userObject lawful user
  refine ⟨object,same,?_⟩
  cases first : comments.head? with
  | none =>
    simp only [NetworkSuccess.writes,writePostDetails,converted,first]
    rfl
  | some c =>
    obtain ⟨list,convertedList,sameList⟩ := asArraySome lawful (comments.map Comment.encode)
    refine ⟨list,sameList,?_⟩
    simp only [NetworkSuccess.writes,writePostDetails,converted,first,encodeArray,convertedList]
    rfl

theorem postsRepresents {store : Store σ} (stores : store.Lawful) {db : σ} {c : Cache}
    (represents : Represents store db c) {list : List Post} {object : Json}
    (same : Same (encodeArray Post.encode list) object) :
    Represents store (store.setValue postsConfiguration.node object db)
      {c with posts := if list = [] then none else some list} := by
  refine ⟨?_,fun k => holdsApart stores (postsUser k) _ (represents.user k),
    fun k => holdsApart stores (postsComments k) _ (represents.comments k)⟩
  by_cases empty : list = []
  · subst empty
    rw [if_pos rfl]
    cases same with
    | array elements =>
      cases elements
      exact stores.emptyArray _ _
  · rw [if_neg empty]
    exact holdsWritten stores (respectsArray respectsPost) db
      (storableSame (storableArray storablePost empty) same) (sameContainer same ▸ rfl)
      (respectsArray respectsPost _ _ same ▸ decodeEncodedArray decodePost list)

theorem userRepresents {store : Store σ} (stores : store.Lawful) {db : σ} {c : Cache}
    (represents : Represents store db c) {user : User} {object : Json}
    (same : Same user.encode object) :
    Represents store (store.setValue (userConfiguration user.userId).node object db)
      {c with user := Function.update c.user user.userId (some user)} := by
  refine ⟨holdsApart stores (postsUser _).symm _ represents.posts,fun k => ?_,
    fun k => holdsApart stores (userComments _ k) _ (represents.comments k)⟩
  by_cases hit : k = user.userId
  · subst hit
    simp only [Function.update_self]
    exact holdsWritten stores respectsUser db (storableSame (storableUser user) same)
      (sameContainer same ▸ rfl) (respectsUser _ _ same ▸ decodeUser user)
  · simp only [Function.update_of_ne hit]
    exact holdsApart stores (userUser (fun same => hit same.symm)) _ (represents.user k)

theorem commentsRepresents {store : Store σ} (stores : store.Lawful) {db : σ} {c : Cache}
    (represents : Represents store db c) (key : Int64) {comments : List Comment}
    (inhabited : comments ≠ []) {list : Json} (same : Same (encodeArray Comment.encode comments) list) :
    Represents store (store.setValue (commentsConfiguration key).node list db)
      {c with comments := Function.update c.comments key (some comments)} := by
  refine ⟨holdsApart stores (postsComments _).symm _ represents.posts,
    fun k => holdsApart stores (userComments k _).symm _ (represents.user k),fun k => ?_⟩
  by_cases hit : k = key
  · subst hit
    simp only [Function.update_self]
    exact holdsWritten stores (respectsArray respectsComment) db
      (storableSame (storableArray storableComment inhabited) same) (sameContainer same ▸ rfl)
      (respectsArray respectsComment _ _ same ▸ decodeEncodedArray decodeComment comments)
  · simp only [Function.update_of_ne hit]
    exact holdsApart stores (commentsComments (fun same => hit same.symm)) _ (represents.comments k)

theorem recordRepresents {F : Foundation Data} (lawful : F.Lawful) {store : Store σ}
    (stores : store.Lawful) {db : σ} {c : Cache} (represents : Represents store db c)
    (n : NetworkSuccess) : Represents store (replay store db (n.writes F)) (c.record n) := by
  cases n with
  | posts list =>
    obtain ⟨object,writes,same⟩ := postsObject lawful list
    rw [writes]
    exact postsRepresents stores represents same
  | details userId postId user comments =>
    obtain ⟨object,same,writes⟩ := detailsWrites lawful userId postId user comments
    have written := userRepresents stores represents same
    cases comments with
    | nil =>
      rw [writes]
      exact written
    | cons first rest =>
      obtain ⟨list,sameList,writes⟩ := writes
      rw [writes]
      exact commentsRepresents stores written first.postId (List.cons_ne_nil _ _) sameList

def database (store : Store σ) (w : Provider) : σ := replay store store.empty (writesOf w.log)

theorem runRepresents {F : Foundation Data} (lawful : F.Lawful) {store : Store σ}
    (stores : store.Lawful) {events : List (ProviderEvent Data)} {w : Provider}
    (ran : Pool.run (dataProvider F) events = some w) :
    Represents store (database store w) (cacheOf (deliveries F events)) := by
  rw [database,runWrites ran]
  induction deliveries F events using List.reverseRecOn with
  | nil => exact emptyRepresents stores
  | append_singleton ds d ih =>
    rw [List.flatMap_append,List.flatMap_singleton,replayAppend,cacheSnoc]
    exact recordRepresents lawful stores ih d.2

theorem heldAnswer {F : Foundation Data} (lawful : F.Lawful) {store : Store σ} {db : σ} {p : Path}
    {decode : Json → Option α} (respects : Respects decode) {value : Option α}
    (holds : Holds store db p decode value) :
    raceAnswer F decode (.answered (.of (store.value p db))) = some (.ok (match value with
      | some x => .success x
      | none => .failure (.apiDatabase .databaseReadError))) := by
  cases value with
  | none =>
    have absent : store.value p db = none := holds
    rw [absent]
    rfl
  | some x =>
    obtain ⟨v,found,container,decoded⟩ := holds
    have present : v.isNull = false := by
      cases v <;> first | rfl | cases container
    simp only [found,DataSnapshot.of,raceAnswer,Race.response,snapshotResponse,DataSnapshot.exists,present,
      Bool.not_false,if_true,Option.map_some,readCompletion,decodeObjectContainer lawful respects container,
      decoded,bind,Except.bind]

theorem heldValue {F : Foundation Data} (lawful : F.Lawful) {store : Store σ} {db : σ} {p : Path}
    {decode : Json → Option α} (respects : Respects decode) {value : Option α}
    (holds : Holds store db p decode value) :
    readValue F decode (.answered (.of (store.value p db))) = value := by
  simp only [readValue,heldAnswer lawful respects holds]
  cases value <;> rfl

theorem readSource {F : Foundation Data} {decode : Json → Option α} {node : Option Json} {x : α}
    (value : readValue F decode (.answered (.of node)) = some x) :
    ∃ v, node = some v ∧ decodeObject F decode v = .ok (some x) := by
  cases node with
  | none => cases value
  | some v =>
    refine ⟨v,rfl,?_⟩
    cases absent : v.isNull with
    | true => simp [readValue,raceAnswer,Race.response,snapshotResponse,DataSnapshot.of,DataSnapshot.exists,
        absent,readCompletion] at value
    | false =>
      simp only [readValue,raceAnswer,Race.response,snapshotResponse,DataSnapshot.of,DataSnapshot.exists,
        absent,Bool.not_false,if_true,Option.map_some,readCompletion,bind,Except.bind] at value
      cases decoded : decodeObject F decode v with
      | error t => rw [decoded] at value; cases value
      | ok answer =>
        rw [decoded] at value
        cases answer with
        | none => cases value
        | some y => cases value; rfl

end BabylonHealthDemo
