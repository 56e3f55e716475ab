import BabylonHealthDemo.OfflineReads

/-! What a call without a network replays. The posts list comes back as it was last
delivered unless it was empty; the details come back unless the last comments
were empty. An empty list leaves no node, and a read cannot tell it from a list
that was never downloaded. -/
namespace BabylonHealthDemo
open JsonTree PathStore Callbacks

def NetworkSuccess.postsList : NetworkSuccess → Option (List Post)
  | .posts list => some list
  | .details _ _ _ _ => none

def NetworkSuccess.userFor (key : Int64) : NetworkSuccess → Option User
  | .details userId _ user _ => if userId = key then some user else none
  | .posts _ => none

def NetworkSuccess.commentsFor (key : Int64) : NetworkSuccess → Option (List Comment)
  | .details _ postId _ comments => if postId = key then some comments else none
  | .posts _ => none

/- The service answered the request: the requested user, comments of the requested post. -/
def NetworkSuccess.Matching : NetworkSuccess → Prop
  | .details userId postId user comments => user.userId = userId ∧ ∀ c ∈ comments, c.postId = postId
  | .posts _ => True

def latest (part : NetworkSuccess → Option α) (ds : List (Nat × NetworkSuccess)) : Option α :=
  (ds.filterMap (fun d => part d.2)).getLast?

theorem latestSnoc (part : NetworkSuccess → Option α) (ds : List (Nat × NetworkSuccess))
    (d : Nat × NetworkSuccess) : latest part (ds ++ [d]) = (part d.2).or (latest part ds) := by
  cases found : part d.2 <;> simp [latest,found]

theorem cachedPosts (ds : List (Nat × NetworkSuccess)) :
    (cacheOf ds).posts = (latest NetworkSuccess.postsList ds).filter (fun list => list ≠ []) := by
  induction ds using List.reverseRecOn with
  | nil => rfl
  | append_singleton ds d ih =>
    rw [cacheSnoc,latestSnoc]
    obtain ⟨_,n⟩ := d
    cases n with
    | posts list => by_cases empty : list = [] <;>
        simp [Cache.record,NetworkSuccess.postsList,Option.filter,empty]
    | details _ _ _ _ => simpa [Cache.record,NetworkSuccess.postsList] using ih

theorem cachedUser {ds : List (Nat × NetworkSuccess)} (matching : ∀ d ∈ ds, d.2.Matching) (key : Int64) :
    (cacheOf ds).user key = latest (NetworkSuccess.userFor key) ds := by
  induction ds using List.reverseRecOn with
  | nil => rfl
  | append_singleton ds d ih =>
    have earlier := ih (fun d member => matching d (List.mem_append_left _ member))
    have last := matching d (by simp)
    rw [cacheSnoc,latestSnoc]
    obtain ⟨_,n⟩ := d
    cases n with
    | posts list => simpa [Cache.record,NetworkSuccess.userFor] using earlier
    | details userId postId user comments =>
      obtain ⟨same,_⟩ := last
      simp only [Cache.record,NetworkSuccess.userFor,same]
      by_cases hit : userId = key
      · simp [hit]
      · rw [Function.update_of_ne (fun same => hit same.symm),if_neg hit,Option.none_or]
        exact earlier

theorem cachedInhabited (ds : List (Nat × NetworkSuccess)) (key : Int64) :
    (cacheOf ds).comments key ≠ some [] := by
  induction ds using List.reverseRecOn with
  | nil => exact nofun
  | append_singleton ds d ih =>
    rw [cacheSnoc]
    obtain ⟨_,n⟩ := d
    cases n with
    | posts list => exact ih
    | details userId postId user comments =>
      cases comments with
      | nil => exact ih
      | cons first rest =>
        simp only [Cache.record,List.head?_cons]
        by_cases hit : key = first.postId
        · subst hit
          rw [Function.update_self]
          exact nofun
        · rw [Function.update_of_ne hit]
          exact ih

theorem cachedLatest {ds : List (Nat × NetworkSuccess)} (matching : ∀ d ∈ ds, d.2.Matching)
    {key : Int64} {comments : List Comment} (inhabited : comments ≠ [])
    (last : latest (NetworkSuccess.commentsFor key) ds = some comments) :
    (cacheOf ds).comments key = some comments := by
  induction ds using List.reverseRecOn with
  | nil => cases last
  | append_singleton ds d ih =>
    have earlier := ih (fun d member => matching d (List.mem_append_left _ member))
    have matched := matching d (by simp)
    rw [latestSnoc] at last
    rw [cacheSnoc]
    obtain ⟨_,n⟩ := d
    cases n with
    | posts list => exact earlier last
    | details userId postId user fetched =>
      obtain ⟨_,same⟩ := matched
      by_cases hit : postId = key
      · simp only [NetworkSuccess.commentsFor,if_pos hit,Option.some_or,Option.some.injEq] at last
        subst last
        cases fetched with
        | nil => exact absurd rfl inhabited
        | cons first rest =>
          have keyed : first.postId = key := (same first (by simp)).trans hit
          simp only [Cache.record,List.head?_cons,keyed,Function.update_self]
      · simp only [NetworkSuccess.commentsFor,if_neg hit,Option.none_or] at last
        cases fetched with
        | nil => exact earlier last
        | cons first rest =>
          have keyed : first.postId = postId := same first (by simp)
          have away : key ≠ first.postId := fun same => hit (keyed.symm.trans same.symm)
          simp only [Cache.record,List.head?_cons,Function.update_of_ne away]
          exact earlier last

theorem detailsFromReads {F : Foundation Data} {userId postId : Int64} {a : CallAnswers} {s : CallState}
    {delivered : List CallResponse} (agrees : CallAgrees F (.retrievePostDetails userId postId) a s delivered)
    (decided : a.race .user ≠ .open) (given : delivered ≠ []) :
    delivered = [.details (orFailure (both (readValue F User.decode (a.race .user))
      (readValue F (decodeArray Comment.decode) (a.race .comments))) .unableToReadPostDetailsData)] := by
  have one := (callDelivered agrees).resolve_left given
  generalize args : CallArgs.retrievePostDetails userId postId = call at agrees
  cases agrees with
  | posts _ => cases args
  | @details a s responses agrees =>
    have spec := detailsReadSpec agrees decided
    rw [one,CallAnswers.spec,spec]
    rfl

theorem postsFromRead {F : Foundation Data} {a : CallAnswers} {s : CallState}
    {delivered : List CallResponse} (agrees : CallAgrees F .retrieveAllPosts a s delivered)
    (decided : a.race .posts ≠ .open) (given : delivered ≠ []) :
    delivered = [.posts (orFailure (readValue F (decodeArray Post.decode) (a.race .posts))
      .unableToReadAllPostsData)] := by
  have one := (callDelivered agrees).resolve_left given
  generalize args : CallArgs.retrieveAllPosts = call at agrees
  cases agrees with
  | details _ => cases args
  | @posts a s responses agrees =>
    have spec := postsReadSpec agrees decided
    rw [one,CallAnswers.spec,spec]
    rfl

/- The replies of the service let no call take the first of no users. -/
theorem offlineDetails {F : Foundation Data} (lawful : F.Lawful) {store : Store σ} (stores : store.Lawful)
    {events : List (ProviderEvent Data)} {w : Provider}
    (ran : Pool.run (dataProvider F) events = some w) (faithful : Faithful F store events)
    (answers : ∀ call reply, .step call (.details (.load (.userReply reply))) ∈ events →
      ∃ response, userAnswer F reply = .ok response)
    (matching : ∀ d ∈ deliveries F events, d.2.Matching)
    {call : Nat} {userId postId : Int64} {i : Instance CallArgs CallState CallResponse}
    (found : w.instances[call]? = some i) (args : i.args = .retrievePostDetails userId postId)
    {xs ys xs' ys' : List (ProviderEvent Data)} {userSnapshot commentsSnapshot : DataSnapshot}
    (userRead : events = xs ++ .step call (.details (.read (.user (.snapshot userSnapshot)))) :: ys)
    (userEarly : .details (.read (.user .timeout)) ∉ own call xs)
    (commentsRead : events =
      xs' ++ .step call (.details (.read (.comments (.snapshot commentsSnapshot)))) :: ys')
    (commentsEarly : .details (.read (.comments .timeout)) ∉ own call xs')
    {user : User} {comments : List Comment}
    (lastUser : latest (NetworkSuccess.userFor userId) (deliveries F xs) = some user)
    (lastComments : latest (NetworkSuccess.commentsFor postId) (deliveries F xs') = some comments) :
    w.trap = none ∧ (Settled F i.state → i.delivered ≠ []) ∧
    (i.delivered ≠ [] →
      (i.delivered = [.details (.success ⟨user,comments⟩)] ↔ comments ≠ [])) := by
  have alive := faithfulAlive lawful stores ran faithful answers
  have agrees := ownAgrees ran alive found
  refine ⟨alive,fun settled => by rw [callSettled agrees settled]; exact List.cons_ne_nil _ _,?_⟩
  intro given
  obtain ⟨before,ranBefore,userRace⟩ := offlineAnswer ran faithful found
    (show i.args.node .user = some _ by rw [args]; rfl) userRead userEarly
  obtain ⟨before',ranBefore',commentsRace⟩ := offlineAnswer ran faithful found
    (show i.args.node .comments = some _ by rw [args]; rfl) commentsRead commentsEarly
  have early : ∀ d ∈ deliveries F xs, d.2.Matching := fun d member => matching d (by
    rw [userRead]
    exact (deliveriesPrefix F xs _).subset member)
  have early' : ∀ d ∈ deliveries F xs', d.2.Matching := fun d member => matching d (by
    rw [commentsRead]
    exact (deliveriesPrefix F xs' _).subset member)
  rw [args] at agrees userRace commentsRace
  have response := detailsFromReads agrees (by rw [userRace]; exact nofun) given
  rw [userRace,commentsRace,
    heldValue lawful respectsUser ((runRepresents lawful stores ranBefore).user userId),
    heldValue lawful (respectsArray respectsComment) ((runRepresents lawful stores ranBefore').comments postId),
    cachedUser early,lastUser] at response
  rw [response]
  constructor
  · rintro same rfl
    -- no empty list is ever stored, so none can be read back
    cases cached : (cacheOf (deliveries F xs')).comments postId with
    | none => simp [cached,both,orFailure] at same
    | some list =>
      have full := cachedInhabited (deliveries F xs') postId
      simp [cached,both,orFailure] at same
      exact full (by rw [cached,same])
  · intro inhabited
    rw [cachedLatest early' inhabited lastComments]
    rfl

def replayRun (comments : List Comment) (commentsSnapshot : DataSnapshot) : List (ProviderEvent Json) :=
  [.spawn (.retrievePostDetails 1 2),
    .step 0 (.details (.load (.userReply ⟨some (encodeArray User.encode [sampleUser 1]),none⟩))),
    .step 0 (.details (.load (.commentsReply ⟨some (encodeArray Comment.encode comments),none⟩))),
    .step 0 (.details (.load .notify)),.spawn (.retrievePostDetails 1 2),
    .step 1 (.details (.load (.userReply ⟨none,none⟩))),
    .step 1 (.details (.load (.commentsReply ⟨none,none⟩))),.step 1 (.details (.load .notify)),
    .step 1 (.details (.read (.user (.snapshot (.of (some (sampleUser 1).encode)))))),
    .step 1 (.details (.read (.comments (.snapshot commentsSnapshot)))),
    .step 1 (.details (.read .notify))]

def twoComments : List Comment := [sampleComment 2 1,sampleComment 2 2]

def userWritten : Node := replay keyTree keyTree.empty [⟨["users","1"],(sampleUser 1).encode⟩]

def commentsWritten : Node :=
  replay keyTree userWritten [⟨["comments","2"],encodeArray Comment.encode twoComments⟩]

def twoCommentsRun : List (ProviderEvent Json) :=
  replayRun twoComments (.of (some (encodeArray Comment.encode twoComments)))

theorem offlineDetailsReplayed : ∃ w i, Pool.run (dataProvider plainFoundation) twoCommentsRun = some w ∧
    w.instances[1]? = some i ∧
    i.delivered = [.details (.success ⟨sampleUser 1,twoComments⟩)] := by
  have user : DataSnapshot.of (some (sampleUser 1).encode) =
      .of (keyTree.value ["users","1"] commentsWritten) := rfl
  have comments : DataSnapshot.of (some (encodeArray Comment.encode twoComments)) =
      .of (keyTree.value ["comments","2"] commentsWritten) := rfl
  have faithful : Faithful plainFoundation keyTree twoCommentsRun := by
    unfold Faithful
    exact ⟨trivial,trivial,trivial,trivial,trivial,trivial,trivial,trivial,user,comments,trivial⟩
  have answers : ∀ call reply, .step call (.details (.load (.userReply reply))) ∈ twoCommentsRun →
      ∃ response, userAnswer plainFoundation reply = .ok response := by
    intro call reply member
    simp [twoCommentsRun,replayRun] at member
    rcases member with ⟨_,rfl⟩ | ⟨_,rfl⟩ <;> exact ⟨_,rfl⟩
  have delivered : deliveries plainFoundation twoCommentsRun =
      [(0,.details 1 2 (sampleUser 1) twoComments)] := rfl
  have matching : ∀ d ∈ deliveries plainFoundation twoCommentsRun, d.2.Matching := by
    rw [delivered]
    simp [NetworkSuccess.Matching,sampleUser,twoComments,sampleComment]
  obtain ⟨_,_,replayed⟩ := offlineDetails plainLawful keyTreeLawful
    (show Pool.run _ twoCommentsRun = some _ from rfl) faithful answers matching
    (show _ = some _ from rfl) rfl
    (show twoCommentsRun = twoCommentsRun.take 8 ++ _ :: _ from rfl) (by simp [own,twoCommentsRun,replayRun])
    (show twoCommentsRun = twoCommentsRun.take 9 ++ _ :: _ from rfl) (by simp [own,twoCommentsRun,replayRun])
    (show _ = some (sampleUser 1) from rfl) (show _ = some twoComments from rfl)
  exact ⟨_,_,rfl,rfl,(replayed (List.cons_ne_nil _ _)).mpr (List.cons_ne_nil _ _)⟩

theorem emptyCommentsLost : ∃ w i, Pool.run (dataProvider plainFoundation) (replayRun [] (.of none)) = some w ∧
    Faithful plainFoundation keyTree (replayRun [] (.of none)) ∧
    deliveries plainFoundation (replayRun [] (.of none)) = [(0,.details 1 2 (sampleUser 1) [])] ∧
    w.instances[1]? = some i ∧ i.args = .retrievePostDetails 1 2 ∧
    i.delivered ≠ [.details (.success ⟨sampleUser 1,[]⟩)] ∧
    i.delivered = [.details (.failure (.data .unableToReadPostDetailsData))] := by
  have user : DataSnapshot.of (some (sampleUser 1).encode) =
      .of (keyTree.value ["users","1"] userWritten) := rfl
  have comments : DataSnapshot.of none = .of (keyTree.value ["comments","2"] userWritten) := rfl
  have faithful : Faithful plainFoundation keyTree (replayRun [] (.of none)) := by
    unfold Faithful
    exact ⟨trivial,trivial,trivial,trivial,trivial,trivial,trivial,trivial,user,comments,trivial⟩
  exact ⟨_,_,rfl,faithful,rfl,rfl,rfl,nofun,rfl⟩

/- The posts list has no key, so any run of calls may surround the offline one. -/
theorem offlinePosts {F : Foundation Data} (lawful : F.Lawful) {store : Store σ} (stores : store.Lawful)
    {events : List (ProviderEvent Data)} {w : Provider}
    (ran : Pool.run (dataProvider F) events = some w) (alive : w.trap = none)
    (faithful : Faithful F store events) {call : Nat} {i : Instance CallArgs CallState CallResponse}
    (found : w.instances[call]? = some i) (args : i.args = .retrieveAllPosts)
    {xs ys : List (ProviderEvent Data)} {snapshot : DataSnapshot}
    (read : events = xs ++ .step call (.posts (.read (.snapshot snapshot))) :: ys)
    (early : .posts (.read .timeout) ∉ own call xs) :
    (Settled F i.state → i.delivered ≠ []) ∧
    (i.delivered ≠ [] →
      (i.delivered = [.posts (match latest NetworkSuccess.postsList (deliveries F xs) with
          | some list => .success list
          | none => .failure (.data .unableToReadAllPostsData))] ↔
        latest NetworkSuccess.postsList (deliveries F xs) ≠ some [])) := by
  have agrees := ownAgrees ran alive found
  refine ⟨fun settled => by rw [callSettled agrees settled]; exact List.cons_ne_nil _ _,?_⟩
  intro given
  obtain ⟨before,ranBefore,race⟩ := offlineAnswer ran faithful found
    (show i.args.node .posts = some _ by rw [args]; rfl) read early
  rw [args] at agrees race
  have response := postsFromRead agrees (by rw [race]; exact nofun) given
  rw [race,heldValue lawful (respectsArray respectsPost) (runRepresents lawful stores ranBefore).posts,
    cachedPosts] at response
  rw [response]
  cases latest NetworkSuccess.postsList (deliveries F xs) with
  | none => simp [orFailure]
  | some list =>
    cases list with
    | nil => simp [orFailure,Option.filter]
    | cons first rest => simp [orFailure,Option.filter]

def postsRun (last : List Post) (snapshot : DataSnapshot) : List (ProviderEvent Json) :=
  [.spawn .retrieveAllPosts,.spawn .retrieveAllPosts,
    .step 1 (.posts (.reply ⟨some (encodeArray Post.encode [samplePost 7]),none⟩)),
    .step 0 (.posts (.reply ⟨some (encodeArray Post.encode last),none⟩)),.spawn .retrieveAllPosts,
    .step 2 (.posts (.reply ⟨none,some (.external "offline")⟩)),
    .step 2 (.posts (.read (.snapshot snapshot))),.step 2 (.posts (.read .timeout))]

def twoPosts : List Post := [samplePost 1,samplePost 2]

def postsWritten (last : List Post) : Node :=
  replay keyTree keyTree.empty
    [⟨["posts"],encodeArray Post.encode [samplePost 7]⟩,⟨["posts"],encodeArray Post.encode last⟩]

def twoPostsRun : List (ProviderEvent Json) :=
  postsRun twoPosts (.of (some (encodeArray Post.encode twoPosts)))

theorem offlinePostsReplayed : ∃ w i, Pool.run (dataProvider plainFoundation) twoPostsRun = some w ∧
    w.instances[2]? = some i ∧
    i.delivered = [.posts (.success twoPosts)] := by
  have posts : DataSnapshot.of (some (encodeArray Post.encode twoPosts)) =
      .of (keyTree.value ["posts"] (postsWritten twoPosts)) := rfl
  have faithful : Faithful plainFoundation keyTree twoPostsRun := by
    unfold Faithful
    exact ⟨trivial,trivial,trivial,trivial,trivial,trivial,posts,trivial⟩
  obtain ⟨_,replayed⟩ := offlinePosts plainLawful keyTreeLawful
    (show Pool.run _ twoPostsRun = some _ from rfl) rfl faithful (show _ = some _ from rfl) rfl
    (show twoPostsRun = twoPostsRun.take 6 ++ _ :: _ from rfl) (by simp [own,twoPostsRun,postsRun])
  have filled : some twoPosts ≠ some [] := by simp [twoPosts]
  exact ⟨_,_,rfl,rfl,(replayed (List.cons_ne_nil _ _)).mpr filled⟩

theorem emptyPostsLost : ∃ w i, Pool.run (dataProvider plainFoundation) (postsRun [] (.of none)) = some w ∧
    Faithful plainFoundation keyTree (postsRun [] (.of none)) ∧
    deliveries plainFoundation ((postsRun [] (.of none)).take 6) =
      [(1,.posts [samplePost 7]),(0,.posts [])] ∧
    w.trap = none ∧ w.instances[2]? = some i ∧ i.args = .retrieveAllPosts ∧
    i.delivered ≠ [.posts (.success [])] ∧
    i.delivered = [.posts (.failure (.data .unableToReadAllPostsData))] := by
  have posts : DataSnapshot.of none = .of (keyTree.value ["posts"] (postsWritten [])) := rfl
  have faithful : Faithful plainFoundation keyTree (postsRun [] (.of none)) := by
    unfold Faithful
    exact ⟨trivial,trivial,trivial,trivial,trivial,trivial,posts,trivial⟩
  exact ⟨_,_,rfl,faithful,rfl,rfl,rfl,rfl,nofun,rfl⟩

end BabylonHealthDemo
