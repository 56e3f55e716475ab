import BabylonHealthDemo.NetworkingAPI

/-! BabylonHealthDatabaseAPI. The three reads decode the object of a snapshot, and
readPostDetails joins two of them as loadPostDetails joins two requests. The
writes convert first; writePostDetails issues the user write before it looks at
the comments, and takes the comments key from the first of them. -/
namespace BabylonHealthDemo
open JsonTree PathStore Callbacks

def readCompletion (F : Foundation Data) (decode : Json → Option α) :
    ResponseType (DatabaseResponse Json) → Except Trap (ResponseType α)
  | .success result => do
    match ← decodeObject F decode result.data with
    | some value => .ok (.success value)
    | none => .ok (.failure (.apiDatabase .conversionError))
  | .failure error => .ok (.failure error)

def Read.answer (F : Foundation Data) (decode : Json → Option α) (r : Read) (e : ReadEvent) :
    Option (Except Trap (Out Action Read (ResponseType α))) := do
  let (r,out) ← r.step e
  some (do
    let out ← transform (readCompletion F decode) out
    .ok (r,out))

def postsConfiguration : DatabaseConfiguration := {path := Constants.firebasePostsPath}

def userConfiguration (userId : Int64) : DatabaseConfiguration :=
  {path := Constants.firebaseUsersPath,childPath := some (toString userId)}

def commentsConfiguration (postId : Int64) : DatabaseConfiguration :=
  {path := Constants.firebaseCommentsPath,childPath := some (toString postId)}

def readPosts : Read := read postsConfiguration

def readPostUser (userId : Int64) : Read := read (userConfiguration userId)

def readPostComments (postId : Int64) : Read := read (commentsConfiguration postId)

def readPostsStep (F : Foundation Data) (r : Read) (e : ReadEvent) :
    Option (Except Trap (Out Action Read (ResponseType (List Post)))) :=
  r.answer F (decodeArray Post.decode) e

structure ReadPostDetails where
  vars : PostDetailsVars
  userRead : Read
  commentsRead : Read

inductive ReadDetailsEvent where
  | user (event : ReadEvent)
  | comments (event : ReadEvent)
  | notify

def readPostDetails (userId postId : Int64) : ReadPostDetails :=
  let vars := PostDetailsVars.new.enter
  let userRead := readPostUser userId
  let vars := vars.enter
  let commentsRead := readPostComments postId
  ⟨vars.notify,userRead,commentsRead⟩

def ReadPostDetails.step (F : Foundation Data) (s : ReadPostDetails) :
    ReadDetailsEvent → Option (Except Trap (Out Action ReadPostDetails (ResponseType PostDetails)))
  | .user e => do
    let block ← s.userRead.answer F User.decode e
    some (do
      let (r,out) ← block
      let (vars,out) ← handle PostDetailsVars.userCompletion s.vars out
      .ok ({s with vars := vars,userRead := r},out))
  | .comments e => do
    let block ← s.commentsRead.answer F (decodeArray Comment.decode) e
    some (do
      let (r,out) ← block
      let (vars,out) ← handle PostDetailsVars.commentsCompletion s.vars out
      .ok ({s with vars := vars,commentsRead := r},out))
  | .notify => do
    let group ← s.vars.dispatchGroup.run
    some (do
      let out ← s.vars.notifyBlock
      .ok ({s with vars := {s.vars with dispatchGroup := group}},out))

/- The synchronous part of the writes; acknowledgements come later, through
writeAcknowledged, once for each setValue. -/
def writePosts (F : Foundation Data) (posts : List Post) : List (Effect Action (ResponseType Bool)) :=
  match asArray F (encodeArray Post.encode posts) with
  | none => [.complete (.failure (.apiDatabase .conversionError))]
  | some array => create postsConfiguration array

def writePostDetails (F : Foundation Data) (user : User) (comments : List Comment) :
    List (Effect Action (ResponseType Bool)) :=
  match asDictionary F user.encode with
  | none => [.complete (.failure (.apiDatabase .conversionError))]
  | some userDict =>
    create (userConfiguration user.userId) userDict ++
    match comments.head?,asArray F (encodeArray Comment.encode comments) with
    | some firstComment,some commentsArray =>
        create (commentsConfiguration firstComment.postId) commentsArray
    | _,_ => [.complete (.failure (.apiDatabase .conversionError))]

def writeAcknowledged (node : Path) (error : Option SwiftError) : ResponseType Bool :=
  match createAcknowledged node error with
  | .success _ => .success true
  | .failure error => .failure error

def raceAnswer (F : Foundation Data) (decode : Json → Option α) (race : Race) :
    Option (Except Trap (ResponseType α)) := race.response.map (readCompletion F decode)

def ScalarSnapshot (e : ReadEvent) : Prop :=
  ∃ snapshot object, e = .snapshot snapshot ∧ snapshotResponse snapshot = .success ⟨object⟩ ∧
    object.isContainer = false

theorem readCompletionTrap {F : Foundation Data} {decode : Json → Option α}
    {response : ResponseType (DatabaseResponse Json)} {t : Trap}
    (trap : readCompletion F decode response = .error t) : t = .invalidTopLevelObject ∧
      ∃ object, response = .success ⟨object⟩ ∧ object.isContainer = false := by
  cases response with
  | failure e => cases trap
  | success result =>
    cases container : result.data.isContainer with
    | false =>
      simp only [readCompletion,decodeObjectScalar container,bind,Except.bind] at trap
      cases trap
      exact ⟨rfl,_,rfl,container⟩
    | true =>
      simp only [readCompletion,decodeObject,dataWithJSONObject,container,if_true,bind,Except.bind] at trap
      split at trap <;> cases trap

theorem raceTrap {F : Foundation Data} {decode : Json → Option α} {race : Race} (opened : race = .open)
    {e : ReadEvent} {t : Trap} (trap : raceAnswer F decode (race.next e) = some (.error t)) :
    t = .invalidTopLevelObject ∧ ScalarSnapshot e := by
  subst opened
  obtain ⟨response,decided,completed⟩ := Option.map_eq_some_iff.mp trap
  obtain ⟨cause,object,value,scalar⟩ := readCompletionTrap completed
  refine ⟨cause,?_⟩
  cases e with
  | snapshot s =>
    cases Option.some.inj decided
    exact ⟨s,object,rfl,value,scalar⟩
  | timeout =>
    cases Option.some.inj decided
    cases value

inductive ReadAnswered (F : Foundation Data) (decode : Json → Option α) (race : Race) :
    ReadEvent → Except Trap (Out Action Read (ResponseType α)) → Prop where
  | decided {e response next} (opened : race = .open)
      (answer : raceAnswer F decode (race.next e) = some (.ok response))
      (agrees : ReadAgrees (race.next e) next) :
      ReadAnswered F decode race e (.ok (next,[.complete response]))
  | trapped {e t} (opened : race = .open) (answer : raceAnswer F decode (race.next e) = some (.error t)) :
      ReadAnswered F decode race e (.error t)
  | ignored {e next} (closed : race ≠ .open) (same : race.next e = race) (agrees : ReadAgrees race next) :
      ReadAnswered F decode race e (.ok (next,[]))

theorem readAnswered {F : Foundation Data} {decode : Json → Option α} {race : Race} {r : Read}
    (agrees : ReadAgrees race r) {e : ReadEvent} {block : Except Trap (Out Action Read (ResponseType α))}
    (ok : r.answer F decode e = some block) : ReadAnswered F decode race e block := by
  simp only [Read.answer,bind,Option.bind_eq_some_iff] at ok
  obtain ⟨⟨next,out⟩,stepped,last⟩ := ok
  obtain ⟨agreesNext,_,opening,closing⟩ := readStepped agrees stepped
  cases Option.some.inj last
  by_cases opened : race = .open
  · obtain ⟨response,decided,rfl⟩ := opening opened
    have answer : raceAnswer F decode (race.next e) = some (readCompletion F decode response) := by
      simp [raceAnswer,decided]
    simp only [transform,bind,Except.bind]
    cases completed : readCompletion F decode response with
    | error t => exact .trapped opened (by rw [answer,completed])
    | ok value => exact .decided opened (by rw [answer,completed]) agreesNext
  · obtain ⟨same,rfl⟩ := closing opened
    rw [same] at agreesNext
    exact .ignored opened same agreesNext

theorem readStepNode {r next : Read} {e : ReadEvent}
    {out : List (Effect Action (ResponseType (DatabaseResponse Json)))}
    (ok : r.step e = some (next,out)) : next.node = r.node := by
  cases e <;> simp only [Read.step] at ok <;> split at ok <;> try contradiction
  · cases Option.some.inj ok
    rfl
  · split at ok <;> cases Option.some.inj ok <;> rfl

theorem readAnswerNode {F : Foundation Data} {decode : Json → Option α} {r next : Read} {e : ReadEvent}
    {out : List (Effect Action (ResponseType α))}
    (ok : r.answer F decode e = some (.ok (next,out))) : next.node = r.node := by
  simp only [Read.answer,bind,Option.bind_eq_some_iff] at ok
  obtain ⟨⟨read,inner⟩,stepped,last⟩ := ok
  rw [← readStepNode stepped]
  cases answered : transform (readCompletion F decode) inner with
  | error t => rw [answered] at last; cases last
  | ok rest => rw [answered] at last; cases last; rfl

inductive ReadDetailsRan (F : Foundation Data) (s : ReadPostDetails) :
    ReadDetailsEvent → ReadPostDetails → List (Effect Action (ResponseType PostDetails)) → Prop where
  | user {e r inner vars out} (answered : s.userRead.answer F User.decode e = some (.ok (r,inner)))
      (handled : handle PostDetailsVars.userCompletion s.vars inner = .ok (vars,out)) :
      ReadDetailsRan F s (.user e) {s with vars := vars,userRead := r} out
  | comments {e r inner vars out}
      (answered : s.commentsRead.answer F (decodeArray Comment.decode) e = some (.ok (r,inner)))
      (handled : handle PostDetailsVars.commentsCompletion s.vars inner = .ok (vars,out)) :
      ReadDetailsRan F s (.comments e) {s with vars := vars,commentsRead := r} out
  | notify {group out} (run : s.vars.dispatchGroup.run = some group)
      (notified : s.vars.notifyBlock = .ok out) :
      ReadDetailsRan F s .notify {s with vars := {s.vars with dispatchGroup := group}} out

theorem readDetailsRan {F : Foundation Data} {s next : ReadPostDetails} {e : ReadDetailsEvent}
    {out : List (Effect Action (ResponseType PostDetails))} (ok : s.step F e = some (.ok (next,out))) :
    ReadDetailsRan F s e next out := by
  cases e with
  | user e =>
    simp only [ReadPostDetails.step,bind,Option.bind_eq_some_iff] at ok
    obtain ⟨block,answered,last⟩ := ok
    obtain ⟨⟨r,inner⟩,rfl,more⟩ := okBind (Option.some.inj last)
    obtain ⟨_,handled,same⟩ := okBind more
    cases same
    exact .user answered handled
  | comments e =>
    simp only [ReadPostDetails.step,bind,Option.bind_eq_some_iff] at ok
    obtain ⟨block,answered,last⟩ := ok
    obtain ⟨⟨r,inner⟩,rfl,more⟩ := okBind (Option.some.inj last)
    obtain ⟨_,handled,same⟩ := okBind more
    cases same
    exact .comments answered handled
  | notify =>
    simp only [ReadPostDetails.step,bind,Option.bind_eq_some_iff] at ok
    obtain ⟨group,run,last⟩ := ok
    obtain ⟨_,notified,same⟩ := okBind (Option.some.inj last)
    cases same
    exact .notify run notified

def ReadPostDetails.nodes (s : ReadPostDetails) : Path × Path := (s.userRead.node,s.commentsRead.node)

theorem readDetailsNodes {F : Foundation Data} {s next : ReadPostDetails} {e : ReadDetailsEvent}
    {out : List (Effect Action (ResponseType PostDetails))}
    (ok : s.step F e = some (.ok (next,out))) : next.nodes = s.nodes := by
  cases readDetailsRan ok with
  | user answered _ => simp only [ReadPostDetails.nodes,readAnswerNode answered]
  | comments answered _ => simp only [ReadPostDetails.nodes,readAnswerNode answered]
  | notify _ _ => rfl

structure ReadDetailsAgrees (F : Foundation Data) (userRace commentsRace : Race)
    (user : Option (ResponseType User)) (comments : Option (ResponseType (List Comment)))
    (ran : Bool) (s : ReadPostDetails) : Prop where
  join : JoinAgrees user comments ran s.vars
  userRead : ReadAgrees userRace s.userRead
  commentsRead : ReadAgrees commentsRace s.commentsRead
  userAnswer : raceAnswer F User.decode userRace = user.map .ok
  commentsAnswer : raceAnswer F (decodeArray Comment.decode) commentsRace = comments.map .ok

theorem readDetailsStarts (F : Foundation Data) (userId postId : Int64) :
    ReadDetailsAgrees F .open .open none none false (readPostDetails userId postId) :=
  ⟨joinRegistered rfl rfl (by simp [failed]) rfl,readStarts _,readStarts _,rfl,rfl⟩

theorem openUnanswered {F : Foundation Data} {decode : Json → Option α} {race : Race}
    {response : Option (ResponseType α)} (answer : raceAnswer F decode race = response.map .ok) :
    race = .open ↔ response = none := by
  cases race <;> cases response <;> simp [raceAnswer,Race.response] at answer ⊢

inductive ReadDetailsStepped (F : Foundation Data) (userRace commentsRace : Race)
    (user : Option (ResponseType User)) (comments : Option (ResponseType (List Comment))) (ran : Bool) :
    ReadDetailsEvent → Except Trap (Out Action ReadPostDetails (ResponseType PostDetails)) → Prop where
  | user {e next} (response : Option (ResponseType User))
      (agrees : ReadDetailsAgrees F (userRace.next e) commentsRace response comments
        (ran && user.isSome) next) :
      ReadDetailsStepped F userRace commentsRace user comments ran (.user e) (.ok (next,[]))
  | comments {e next} (response : Option (ResponseType (List Comment)))
      (agrees : ReadDetailsAgrees F userRace (commentsRace.next e) user response
        (ran && comments.isSome) next) :
      ReadDetailsStepped F userRace commentsRace user comments ran (.comments e) (.ok (next,[]))
  | userTrapped {e t} (opened : userRace = .open)
      (answer : raceAnswer F User.decode (userRace.next e) = some (.error t)) :
      ReadDetailsStepped F userRace commentsRace user comments ran (.user e) (.error t)
  | commentsTrapped {e t} (opened : commentsRace = .open)
      (answer : raceAnswer F (decodeArray Comment.decode) (commentsRace.next e) = some (.error t)) :
      ReadDetailsStepped F userRace commentsRace user comments ran (.comments e) (.error t)
  | joined {response next} (users : user.isSome = true) (lists : comments.isSome = true)
      (first : ran = false) (value : response.value = both (received user) (received comments))
      (agrees : ReadDetailsAgrees F userRace commentsRace user comments true next) :
      ReadDetailsStepped F userRace commentsRace user comments ran .notify (.ok (next,[.complete response]))

theorem readDetailsStepped {F : Foundation Data} {userRace commentsRace : Race}
    {user : Option (ResponseType User)} {comments : Option (ResponseType (List Comment))} {ran : Bool}
    {s : ReadPostDetails} (agrees : ReadDetailsAgrees F userRace commentsRace user comments ran s)
    {e : ReadDetailsEvent} {block : Except Trap (Out Action ReadPostDetails (ResponseType PostDetails))}
    (ok : s.step F e = some block) :
    ReadDetailsStepped F userRace commentsRace user comments ran e block := by
  cases e with
  | user e =>
    simp only [ReadPostDetails.step,bind,Option.bind_eq_some_iff] at ok
    obtain ⟨inner,replied,last⟩ := ok
    cases Option.some.inj last
    cases readAnswered agrees.userRead replied with
    | @decided response r opened answer reads =>
      have unanswered := (openUnanswered agrees.userAnswer).mp opened
      have join := agrees.join
      rw [unanswered] at join
      obtain ⟨vars,left,next⟩ := joinUser join response
      simp only [Except.bind,handle,left]
      refine .user (some response) ?_
      rw [unanswered,Option.isSome_none,Bool.and_false]
      exact ⟨next,reads,agrees.commentsRead,answer,agrees.commentsAnswer⟩
    | @trapped t opened answer => exact .userTrapped opened answer
    | @ignored r closed same reads =>
      have answered : user.isSome = true := by
        rw [Option.isSome_iff_ne_none]
        exact fun none => closed ((openUnanswered agrees.userAnswer).mpr none)
      simp only [Except.bind,handle]
      refine .user user ?_
      rw [same,answered,Bool.and_true]
      exact ⟨agrees.join,reads,agrees.commentsRead,agrees.userAnswer,agrees.commentsAnswer⟩
  | comments e =>
    simp only [ReadPostDetails.step,bind,Option.bind_eq_some_iff] at ok
    obtain ⟨inner,replied,last⟩ := ok
    cases Option.some.inj last
    cases readAnswered agrees.commentsRead replied with
    | @decided response r opened answer reads =>
      have unanswered := (openUnanswered agrees.commentsAnswer).mp opened
      have join := agrees.join
      rw [unanswered] at join
      obtain ⟨vars,left,next⟩ := joinComments join response
      simp only [Except.bind,handle,left]
      refine .comments (some response) ?_
      rw [unanswered,Option.isSome_none,Bool.and_false]
      exact ⟨next,agrees.userRead,reads,agrees.userAnswer,answer⟩
    | @trapped t opened answer => exact .commentsTrapped opened answer
    | @ignored r closed same reads =>
      have answered : comments.isSome = true := by
        rw [Option.isSome_iff_ne_none]
        exact fun none => closed ((openUnanswered agrees.commentsAnswer).mpr none)
      simp only [Except.bind,handle]
      refine .comments comments ?_
      rw [same,answered,Bool.and_true]
      exact ⟨agrees.join,agrees.userRead,reads,agrees.userAnswer,agrees.commentsAnswer⟩
  | notify =>
    simp only [ReadPostDetails.step,bind,Option.bind_eq_some_iff] at ok
    obtain ⟨group,run,last⟩ := ok
    obtain ⟨users,lists,first,next,response,block,value⟩ := joinNotify agrees.join run
    cases Option.some.inj last
    simp only [block,Except.bind]
    exact .joined users lists first value
      ⟨next,agrees.userRead,agrees.commentsRead,agrees.userAnswer,agrees.commentsAnswer⟩

theorem answeredClosed {F : Foundation Data} {decode : Json → Option α} {race : Race}
    {response : Option (ResponseType α)} (answer : raceAnswer F decode race = response.map .ok)
    (answered : response.isSome = true) : race ≠ .open := by
  intro opened
  rw [(openUnanswered answer).mp opened] at answered
  cases answered

theorem readAnswerIdle {F : Foundation Data} {decode : Json → Option α} {r : Read} {e : ReadEvent}
    (idle : r.answer F decode e = none) : r.step e = none := by
  cases stepped : r.step e with
  | none => rfl
  | some out => simp [Read.answer,stepped] at idle

theorem settledAnswered {F : Foundation Data} {decode : Json → Option α} {race : Race} {r : Read}
    {response : Option (ResponseType α)} (agrees : ReadAgrees race r)
    (answer : raceAnswer F decode race = response.map .ok)
    (idle : r.answer F decode .timeout = none) : response.isNone = false := by
  have closed := readSettled agrees (readAnswerIdle idle)
  cases response with
  | none => exact absurd ((openUnanswered answer).mpr rfl) closed
  | some _ => rfl

/- Snapshots may never come: the timeout blocks and the notify block suffice. -/
theorem readDetailsSettled {F : Foundation Data} {userRace commentsRace : Race}
    {user : Option (ResponseType User)} {comments : Option (ResponseType (List Comment))} {ran : Bool}
    {s : ReadPostDetails} (agrees : ReadDetailsAgrees F userRace commentsRace user comments ran s)
    (userTimer : s.step F (.user .timeout) = none) (commentsTimer : s.step F (.comments .timeout) = none)
    (notify : s.step F .notify = none) : ran = true := by
  simp only [ReadPostDetails.step,bind,Option.bind_eq_none_iff,reduceCtorEq,imp_false]
    at userTimer commentsTimer notify
  have users := settledAnswered agrees.userRead agrees.userAnswer
    (Option.eq_none_iff_forall_ne_some.mpr userTimer)
  have lists := settledAnswered agrees.commentsRead agrees.commentsAnswer
    (Option.eq_none_iff_forall_ne_some.mpr commentsTimer)
  exact joinSettled agrees.join users lists (Option.eq_none_iff_forall_ne_some.mpr notify)

end BabylonHealthDemo
