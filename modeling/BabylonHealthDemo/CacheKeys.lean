import BabylonHealthDemo.OfflineReplay

/-! Which keys the cache can be trusted under. A user is always stored under its own
id. A list of comments is stored under the post of its first comment, so its node
is consistent exactly when all of the list belong to one post. Writes that
Firebase rejects drop out; what survives is any sublist of the writes of a run. -/
namespace BabylonHealthDemo
open JsonTree PathStore Callbacks

theorem notSelf {p : Path} : ¬ Independent p p := fun apart => apart.1 List.prefix_rfl

inductive Stored : NetworkSuccess → Write → Prop where
  | posts {list object} (same : Same (encodeArray Post.encode list) object) :
      Stored (.posts list) ⟨postsConfiguration.node,object⟩
  | user {userId postId user comments object} (same : Same user.encode object) :
      Stored (.details userId postId user comments) ⟨(userConfiguration user.userId).node,object⟩
  | comments {userId postId user first rest list}
      (same : Same (encodeArray Comment.encode (first :: rest)) list) :
      Stored (.details userId postId user (first :: rest)) ⟨(commentsConfiguration first.postId).node,list⟩

theorem writeStored {F : Foundation Data} (lawful : F.Lawful) {n : NetworkSuccess} {w : Write}
    (member : w ∈ n.writes F) : Stored n w := by
  cases n with
  | posts list =>
    obtain ⟨object,writes,same⟩ := postsObject lawful list
    rw [writes,List.mem_singleton] at member
    subst member
    exact .posts same
  | details userId postId user comments =>
    obtain ⟨object,same,writes⟩ := detailsWrites lawful userId postId user comments
    cases comments with
    | nil =>
      rw [writes,List.mem_singleton] at member
      subst member
      exact .user same
    | cons first rest =>
      obtain ⟨list,sameList,writes⟩ := writes
      rw [writes] at member
      rcases List.mem_pair.mp member with rfl | rfl
      · exact .user same
      · exact .comments sameList

theorem storedUserApart {n : NetworkSuccess} {w : Write} (stored : Stored n w) (k : Int64) :
    w.path = (userConfiguration k).node ∨ Independent w.path (userConfiguration k).node := by
  cases stored with
  | posts _ => exact Or.inr (postsUser k)
  | comments _ => exact Or.inr (userComments k _).symm
  | @user _ _ user _ _ _ =>
    by_cases same : user.userId = k
    · exact Or.inl (by rw [same])
    · exact Or.inr (userUser same)

theorem storedCommentsApart {n : NetworkSuccess} {w : Write} (stored : Stored n w) (k : Int64) :
    w.path = (commentsConfiguration k).node ∨ Independent w.path (commentsConfiguration k).node := by
  cases stored with
  | posts _ => exact Or.inr (postsComments k)
  | user _ => exact Or.inr (userComments _ k)
  | @comments _ _ _ first _ _ _ =>
    by_cases same : first.postId = k
    · exact Or.inl (by rw [same])
    · exact Or.inr (commentsComments same)

def Consistent (F : Foundation Data) (store : Store σ) (db : σ) : Prop :=
  ∀ k : Int64,
    (∀ v, store.value (userConfiguration k).node db = some v →
      ∃ user, decodeObject F User.decode v = .ok (some user) ∧ user.userId = k) ∧
    (∀ v, store.value (commentsConfiguration k).node db = some v →
      ∃ comments, decodeObject F (decodeArray Comment.decode) v = .ok (some comments) ∧
        comments ≠ [] ∧ ∀ c ∈ comments, c.postId = k)

def NetworkSuccess.OnePost : NetworkSuccess → Prop
  | .details _ _ _ comments => ∀ first, comments.head? = some first → ∀ c ∈ comments, c.postId = first.postId
  | .posts _ => True

theorem survivorAt {store : Store σ} (stores : store.Lawful) {p : Path} {survivors : List Write} {v : Json}
    (apart : Apart p survivors) (found : store.value p (replay store store.empty survivors) = some v) :
    ∃ w ∈ survivors, w.path = p ∧ ∃ before,
      store.value p (store.setValue p w.value before) = some v := by
  have last := valueReplay stores apart store.empty
  cases written : lastWrite p survivors with
  | none =>
    rw [written] at last
    rw [last,stores.empty] at found
    cases found
  | some object =>
    rw [written] at last
    obtain ⟨before,same⟩ := last
    exact ⟨⟨p,object⟩,lastWriteMember written,rfl,before,same ▸ found⟩

theorem decodedAt {F : Foundation Data} (lawful : F.Lawful) {store : Store σ} (stores : store.Lawful)
    {decode : Json → Option α} (respects : Respects decode) {p : Path} {j object v : Json} {db : σ} {x : α}
    (storable : Storable j) (container : j.isContainer = true) (decoded : decode j = some x)
    (same : Same j object) (found : store.value p (store.setValue p object db) = some v) :
    decodeObject F decode v = .ok (some x) := by
  obtain ⟨w,present,sameContainer,decodedW⟩ := holdsWritten (p := p) stores respects db
    (storableSame storable same) (sameContainer same ▸ container) (respects _ _ same ▸ decoded)
  cases Option.some.inj (present.symm.trans found)
  rw [decodeObjectContainer lawful respects sameContainer,decodedW]

theorem runStored {F : Foundation Data} (lawful : F.Lawful) {events : List (ProviderEvent Data)}
    {w : Provider} (ran : Pool.run (dataProvider F) events = some w) {write : Write}
    (member : write ∈ writesOf w.log) : ∃ d ∈ deliveries F events, Stored d.2 write := by
  rw [runWrites ran] at member
  obtain ⟨d,delivered,written⟩ := List.mem_flatMap.mp member
  exact ⟨d,delivered,writeStored lawful written⟩

theorem onePostConsistent {F : Foundation Data} (lawful : F.Lawful) {store : Store σ}
    (stores : store.Lawful) {events : List (ProviderEvent Data)} {w : Provider}
    (ran : Pool.run (dataProvider F) events = some w) (onePost : ∀ d ∈ deliveries F events, d.2.OnePost)
    {survivors : List Write} (sublist : survivors.Sublist (writesOf w.log)) :
    Consistent F store (replay store store.empty survivors) := by
  have source : ∀ write ∈ survivors, ∃ d ∈ deliveries F events, Stored d.2 write :=
    fun write member => runStored lawful ran (sublist.subset member)
  intro k
  constructor
  · intro v found
    have apart : Apart (userConfiguration k).node survivors := by
      intro write member
      obtain ⟨d,_,stored⟩ := source write member
      exact storedUserApart stored k
    obtain ⟨write,member,path,before,written⟩ := survivorAt stores apart found
    obtain ⟨⟨call,n⟩,_,stored⟩ := source write member
    cases stored with
    | posts _ => exact absurd (path ▸ postsUser k) notSelf
    | comments _ => exact absurd (path ▸ (userComments k _).symm) notSelf
    | @user _ _ user _ object same =>
      refine ⟨user,decodedAt lawful stores respectsUser (storableUser user) rfl (decodeUser user) same
        written,?_⟩
      by_contra different
      exact absurd (path ▸ userUser different) notSelf
  · intro v found
    have apart : Apart (commentsConfiguration k).node survivors := by
      intro write member
      obtain ⟨d,_,stored⟩ := source write member
      exact storedCommentsApart stored k
    obtain ⟨write,member,path,before,written⟩ := survivorAt stores apart found
    obtain ⟨⟨call,n⟩,delivered,stored⟩ := source write member
    cases stored with
    | posts _ => exact absurd (path ▸ postsComments k) notSelf
    | user _ => exact absurd (path ▸ userComments _ k) notSelf
    | @comments _ _ _ first rest list same =>
      have keyed : first.postId = k := by
        by_contra different
        exact absurd (path ▸ commentsComments different) notSelf
      refine ⟨first :: rest,decodedAt lawful stores (respectsArray respectsComment)
        (storableArray storableComment (List.cons_ne_nil _ _)) rfl
        (decodeEncodedArray decodeComment _) same written,List.cons_ne_nil _ _,?_⟩
      exact fun c inside => (onePost _ delivered first rfl c inside).trans keyed

/- A stored list that mixes posts is itself the breach. -/
theorem consistentOnePost {F : Foundation Data} (lawful : F.Lawful) {store : Store σ}
    (stores : store.Lawful) {n : NetworkSuccess}
    (consistent : Consistent F store (replay store store.empty (n.writes F))) : n.OnePost := by
  cases n with
  | posts list => trivial
  | details userId postId user comments =>
    intro first head c inside
    cases comments with
    | nil => cases head
    | cons other rest =>
      have same : other = first := Option.some.inj head
      subst same
      obtain ⟨object,_,list,same,writes⟩ := detailsWrites lawful userId postId user (other :: rest)
      obtain ⟨v,found,container,decoded⟩ := holdsWritten (p := (commentsConfiguration other.postId).node)
        stores (respectsArray respectsComment)
        (store.setValue (userConfiguration user.userId).node object store.empty)
        (storableSame (storableArray storableComment (List.cons_ne_nil other rest)) same)
        (sameContainer same ▸ rfl)
        (respectsArray respectsComment _ _ same ▸ decodeEncodedArray decodeComment (other :: rest))
      rw [writes] at consistent
      obtain ⟨comments,read,_,keyed⟩ := (consistent other.postId).2 v found
      rw [decodeObjectContainer lawful (respectsArray respectsComment) container,decoded] at read
      cases read
      exact keyed c inside

theorem consistentReads {F : Foundation Data} {store : Store σ} {db : σ} (consistent : Consistent F store db)
    (k : Int64) :
    (∀ user, readValue F User.decode (.answered (.of (store.value (userConfiguration k).node db))) =
      some user → user.userId = k) ∧
    (∀ comments, readValue F (decodeArray Comment.decode)
        (.answered (.of (store.value (commentsConfiguration k).node db))) = some comments →
      ∀ c ∈ comments, c.postId = k) := by
  constructor
  · intro user value
    obtain ⟨v,found,decoded⟩ := readSource value
    obtain ⟨stored,same,keyed⟩ := (consistent k).1 v found
    cases decoded.symm.trans same
    exact keyed
  · intro comments value
    obtain ⟨v,found,decoded⟩ := readSource value
    obtain ⟨stored,same,_,keyed⟩ := (consistent k).2 v found
    cases decoded.symm.trans same
    exact keyed

theorem cacheKeysConsistent {F : Foundation Data} (lawful : F.Lawful) {store : Store σ}
    (stores : store.Lawful) {events : List (ProviderEvent Data)} {w : Provider}
    (ran : Pool.run (dataProvider F) events = some w) :
    (∀ survivors, survivors.Sublist (writesOf w.log) →
      Consistent F store (replay store store.empty survivors) ∧
      ∀ k, (∀ user, readValue F User.decode (.answered (.of (store.value (userConfiguration k).node
            (replay store store.empty survivors)))) = some user → user.userId = k) ∧
        ∀ comments, readValue F (decodeArray Comment.decode) (.answered (.of (store.value
            (commentsConfiguration k).node (replay store store.empty survivors)))) = some comments →
          ∀ c ∈ comments, c.postId = k) ↔
    ∀ d ∈ deliveries F events, d.2.OnePost := by
  constructor
  · intro consistent d member
    -- the writes of this one delivery may be all that survives
    have sublist : (d.2.writes F).Sublist (writesOf w.log) := by
      rw [runWrites ran]
      obtain ⟨before,after,split⟩ := List.append_of_mem member
      rw [split,List.flatMap_append,List.flatMap_cons]
      exact (List.sublist_append_left _ _).trans (List.sublist_append_right _ _)
    exact consistentOnePost lawful stores (consistent _ sublist).1
  · intro onePost survivors sublist
    have consistent := onePostConsistent lawful stores ran onePost sublist
    exact ⟨consistent,consistentReads consistent⟩

def mixedRun (second : Int64) : List (ProviderEvent Json) :=
  [.spawn (.retrievePostDetails 1 2),
    .step 0 (.details (.load (.userReply ⟨some (encodeArray User.encode [sampleUser 1]),none⟩))),
    .step 0 (.details (.load (.commentsReply
      ⟨some (encodeArray Comment.encode [sampleComment 2 1,sampleComment second 2]),none⟩))),
    .step 0 (.details (.load .notify))]

theorem onePostRunConsistent : ∃ w, Pool.run (dataProvider plainFoundation) (mixedRun 2) = some w ∧
    Consistent plainFoundation keyTree (database keyTree w) := by
  have delivered : deliveries plainFoundation (mixedRun 2) =
      [(0,.details 1 2 (sampleUser 1) [sampleComment 2 1,sampleComment 2 2])] := rfl
  have consistent := (cacheKeysConsistent plainLawful keyTreeLawful
    (show Pool.run _ (mixedRun 2) = some _ from rfl)).mpr
    (by rw [delivered]; simp [NetworkSuccess.OnePost,sampleComment])
  exact ⟨_,rfl,(consistent _ (List.Sublist.refl _)).1⟩

theorem mixedRunInconsistent : ∃ w, Pool.run (dataProvider plainFoundation) (mixedRun 3) = some w ∧
    w.trap = none ∧ ¬ Consistent plainFoundation keyTree (database keyTree w) := by
  refine ⟨_,rfl,rfl,fun consistent => ?_⟩
  obtain ⟨comments,read,_,keyed⟩ := (consistent 2).2 (encodeArray Comment.encode
    [sampleComment 2 1,sampleComment 3 2]) rfl
  have decoded : decodeObject plainFoundation (decodeArray Comment.decode) (encodeArray Comment.encode
      [sampleComment 2 1,sampleComment 3 2]) = .ok (some [sampleComment 2 1,sampleComment 3 2]) := rfl
  cases read.symm.trans decoded
  exact absurd (keyed (sampleComment 3 2) (by simp)) (by decide)

end BabylonHealthDemo
