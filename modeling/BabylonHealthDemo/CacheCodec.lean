import BabylonHealthDemo.DatabaseWrites
import BabylonHealthDemo.Library.IndexTree

/-! The coders of the network path against those of the database path. A value that
a body decodes to is converted, written by the database API and read back by the
read of the same key. A lawful store in between gives back any value without empty
containers and index-like keys; the index tree is one that re-keys arrays, drops
nulls and empty containers, and decides only when it is read which branch is an
array. The conversions lose nothing: every field is present, no list is empty and no
field name is an index. -/
namespace BabylonHealthDemo
open JsonTree PathStore Callbacks

def restored (F : Foundation Data) (store : Store σ) (decode : Json → Option α) (db : σ) (r : Read) :
    Option (Except Trap (List (ResponseType α))) :=
  (r.answer F decode (.snapshot (.of (store.value r.node db)))).map
    (fun block => block.map (fun out => completions out.2))

theorem restoredAnswer (F : Foundation Data) (store : Store σ) (decode : Json → Option α) (db : σ)
    (configuration : DatabaseConfiguration) : restored F store decode db (read configuration) =
      (raceAnswer F decode (.answered (.of (store.value configuration.node db)))).map
        (fun answer => answer.map (fun response => [response])) := by
  simp only [restored,Read.answer,Read.step,read,raceAnswer,Race.response,bind,Option.bind,Option.map_some,
    if_true,Bool.not_false,transform]
  cases readCompletion F decode (snapshotResponse (.of (store.value configuration.node db))) <;> rfl

theorem restoredHeld {F : Foundation Data} (lawful : F.Lawful) {store : Store σ} {decode : Json → Option α}
    (respects : Respects decode) {db : σ} {configuration : DatabaseConfiguration} {x : α}
    (holds : Holds store db configuration.node decode (some x)) :
    restored F store decode db (read configuration) = some (.ok [.success x]) := by
  rw [restoredAnswer,heldAnswer lawful respects holds]
  rfl

theorem restoredWritten {F : Foundation Data} (lawful : F.Lawful) {store : Store σ} (stores : store.Lawful)
    {decode : Json → Option α} (respects : Respects decode) {encoded object : Json} {x : α}
    (storable : Storable encoded) (container : encoded.isContainer = true)
    (decoded : decode encoded = some x) (same : Same encoded object) (db : σ)
    (configuration : DatabaseConfiguration) :
    restored F store decode (store.setValue configuration.node object db) (read configuration) =
      some (.ok [.success x]) :=
  restoredHeld lawful respects (holdsWritten stores respects db (storableSame storable same)
    (sameContainer same ▸ container) (respects _ _ same ▸ decoded))

theorem arrayRestored {F : Foundation Data} (lawful : F.Lawful) {store : Store σ} (stores : store.Lawful)
    {encode : α → Json} {decode : Json → Option α} (respects : Respects decode)
    (storable : ∀ x, Storable (encode x)) (roundTrip : ∀ x, decode (encode x) = some x) {xs : List α}
    (inhabited : xs ≠ []) :
    ∃ array, asArray F (encodeArray encode xs) = some array ∧ ∀ db configuration,
      restored F store (decodeArray decode) (store.setValue configuration.node array db)
        (read configuration) = some (.ok [.success xs]) := by
  obtain ⟨array,converted,same⟩ := asArraySome lawful (xs.map encode)
  exact ⟨array,converted,restoredWritten lawful stores (respectsArray respects)
    (storableArray storable inhabited) rfl (decodeEncodedArray roundTrip xs) same⟩

theorem userRestored {F : Foundation Data} (lawful : F.Lawful) {store : Store σ} (stores : store.Lawful)
    (user : User) : ∃ dictionary, asDictionary F user.encode = some dictionary ∧ ∀ db configuration,
      restored F store User.decode (store.setValue configuration.node dictionary db) (read configuration) =
        some (.ok [.success user]) := by
  obtain ⟨dictionary,converted,same⟩ := userObject lawful user
  exact ⟨dictionary,converted,restoredWritten lawful stores respectsUser (storableUser user) rfl
    (decodeUser user) same⟩

def written (store : Store σ) (db : σ) (out : List (Effect Action (ResponseType Bool))) : σ :=
  replay store db (writesOf (actions out))

theorem writtenPosts {F : Foundation Data} {posts : List Post} {array : Json}
    (converted : asArray F (encodeArray Post.encode posts) = some array) (store : Store σ) (db : σ) :
    written store db (writePosts F posts) = store.setValue postsConfiguration.node array db := by
  simp only [written,writePosts,converted]
  rfl

theorem writtenUser {F : Foundation Data} {user : User} {dictionary : Json}
    (converted : asDictionary F user.encode = some dictionary) (store : Store σ) (db : σ)
    (comments : List Comment) : ∃ rest, (∀ w ∈ rest, Independent w.path (userConfiguration user.userId).node) ∧
      written store db (writePostDetails F user comments) =
        replay store (store.setValue (userConfiguration user.userId).node dictionary db) rest := by
  simp only [written,writePostDetails,converted]
  cases comments.head? with
  | none => exact ⟨[],by simp,rfl⟩
  | some first =>
    cases asArray F (encodeArray Comment.encode comments) with
    | none => exact ⟨[],by simp,rfl⟩
    | some array =>
      refine ⟨[⟨(commentsConfiguration first.postId).node,array⟩],?_,rfl⟩
      intro w member
      rw [List.mem_singleton.mp member]
      exact (userComments _ _).symm

theorem writtenComments {F : Foundation Data} {user : User} {comments : List Comment} {first : Comment}
    {dictionary array : Json} (encoded : asDictionary F user.encode = some dictionary)
    (head : comments.head? = some first)
    (converted : asArray F (encodeArray Comment.encode comments) = some array) (store : Store σ) (db : σ) :
    written store db (writePostDetails F user comments) =
      store.setValue (commentsConfiguration first.postId).node array
        (store.setValue (userConfiguration user.userId).node dictionary db) := by
  simp only [written,writePostDetails,encoded,head,converted]
  rfl

theorem cacheCodecAgrees {F : Foundation Data} (lawful : F.Lawful) {store : Store σ} (stores : store.Lawful)
    (body : Data) (db : σ) :
    (∀ posts, loadPostsCompletion F (.success ⟨body⟩) = .success posts → posts ≠ [] →
      (∃ array, asArray F (encodeArray Post.encode posts) = some array ∧ ∀ configuration,
        restored F store (decodeArray Post.decode)
          (store.setValue configuration.node array db) (read configuration) =
            some (.ok [.success posts])) ∧
      restored F store (decodeArray Post.decode)
        (written store db (writePosts F posts)) readPosts = some (.ok [.success posts])) ∧
    (∀ user, getPostUserCompletion F (.success ⟨body⟩) = .ok (.success user) →
      (∃ dictionary, asDictionary F user.encode = some dictionary ∧ ∀ configuration,
        restored F store User.decode
          (store.setValue configuration.node dictionary db) (read configuration) =
            some (.ok [.success user])) ∧
      ∀ comments, restored F store User.decode
        (written store db (writePostDetails F user comments)) (readPostUser user.userId) =
          some (.ok [.success user])) ∧
    (∀ comments, getPostCommentsCompletion F (.success ⟨body⟩) = .success comments → comments ≠ [] →
      (∃ array, asArray F (encodeArray Comment.encode comments) = some array ∧ ∀ configuration,
        restored F store (decodeArray Comment.decode)
          (store.setValue configuration.node array db) (read configuration) =
            some (.ok [.success comments])) ∧
      ∃ first, comments.head? = some first ∧ ∀ user, restored F store (decodeArray Comment.decode)
        (written store db (writePostDetails F user comments)) (readPostComments first.postId) =
          some (.ok [.success comments])) := by
  refine ⟨?_,?_,?_⟩
  · intro posts _ inhabited
    obtain ⟨array,converted,back⟩ := arrayRestored lawful stores respectsPost storablePost
      decodePost inhabited
    refine ⟨⟨array,converted,back db⟩,?_⟩
    rw [writtenPosts converted]
    exact back db postsConfiguration
  · intro user _
    obtain ⟨dictionary,converted,back⟩ := userRestored lawful stores user
    refine ⟨⟨dictionary,converted,back db⟩,fun comments => ?_⟩
    obtain ⟨rest,apart,same⟩ := writtenUser converted store db comments
    have kept := back db (userConfiguration user.userId)
    rw [restoredAnswer] at kept
    rw [readPostUser,restoredAnswer,same,valueUntouched stores apart]
    exact kept
  · intro comments _ inhabited
    obtain ⟨array,converted,back⟩ := arrayRestored lawful stores respectsComment storableComment
      decodeComment inhabited
    refine ⟨⟨array,converted,back db⟩,comments.head inhabited,List.head?_eq_some_head inhabited,fun user => ?_⟩
    obtain ⟨dictionary,encoded,_⟩ := userObject lawful user
    rw [writtenComments encoded (List.head?_eq_some_head inhabited) converted]
    exact back _ (commentsConfiguration _)

def samplePostsBody : Json := .array
  [.dictionary [("body",.string "body"),("title",.string "title"),("0",.null),("id",.int 2),("userId",.int 1)]]

def sampleUsersBody : Json := .array
  [.dictionary (("age",.int 7) :: [("company",(sampleUser 1).company.encode),("website",.string "website"),
    ("phone",.string "phone"),("address",(sampleUser 1).address.encode),("email",.string "email"),
    ("username",.string "username"),("name",.string "name"),("id",.int 1)])]

def sampleCommentsBody : Json := .array
  [.dictionary [("likes",.array []),("body",.string "body"),("email",.string "email"),
    ("name",.string "name"),("id",.int 3),("postId",.int 2)]]

theorem samplePostsLoaded :
    loadPostsCompletion plainFoundation (.success ⟨samplePostsBody⟩) = .success [samplePost 2] := by
  simp [loadPostsCompletion,decodeCompletion,jsonDecode,plainFoundation,samplePostsBody,decodeArray,
    Post.decode,decodeField,Json.field,Post.CodingKeys.rawValue,List.lookup,samplePost]

theorem sampleUserLoaded :
    getPostUserCompletion plainFoundation (.success ⟨sampleUsersBody⟩) = .ok (.success (sampleUser 1)) := by
  simp [getPostUserCompletion,jsonDecode,plainFoundation,sampleUsersBody,decodeArray,User.decode,decodeField,
    Json.field,User.CodingKeys.rawValue,List.lookup,decodeAddress,decodeCompany,sampleUser]

theorem sampleCommentsLoaded :
    getPostCommentsCompletion plainFoundation (.success ⟨sampleCommentsBody⟩) =
      .success [sampleComment 2 3] := by
  simp [getPostCommentsCompletion,decodeCompletion,jsonDecode,plainFoundation,sampleCommentsBody,decodeArray,
    Comment.decode,decodeField,Json.field,Comment.CodingKeys.rawValue,List.lookup,sampleComment]

theorem cacheCodecAgreesSamples :
    restored plainFoundation indexTree (decodeArray Post.decode)
      (written indexTree .none (writePosts plainFoundation [samplePost 2])) readPosts =
        some (.ok [.success [samplePost 2]]) ∧
    restored plainFoundation indexTree User.decode
      (written indexTree .none (writePostDetails plainFoundation (sampleUser 1) [sampleComment 2 3]))
        (readPostUser 1) = some (.ok [.success (sampleUser 1)]) ∧
    restored plainFoundation indexTree (decodeArray Comment.decode)
      (written indexTree .none (writePostDetails plainFoundation (sampleUser 1) [sampleComment 2 3]))
        (readPostComments 2) = some (.ok [.success [sampleComment 2 3]]) := by
  refine ⟨?_,?_,?_⟩
  · exact ((cacheCodecAgrees plainLawful indexTreeLawful samplePostsBody .none).1 _ samplePostsLoaded (by simp)).2
  · exact ((cacheCodecAgrees plainLawful indexTreeLawful sampleUsersBody .none).2.1 _ sampleUserLoaded).2 _
  · obtain ⟨first,head,back⟩ :=
      ((cacheCodecAgrees plainLawful indexTreeLawful sampleCommentsBody .none).2.2 _ sampleCommentsLoaded (by simp)).2
    cases Option.some.inj head
    exact back (sampleUser 1)

end BabylonHealthDemo
