import BabylonHealthDemo.Sessions
import BabylonHealthDemo.AppRuns

/-! The app launched again and again over one database, each launch from what the one
before it has written. The database stays a picture of one cache, a function of what
the network has delivered, in order. A launch without a network writes nothing, and
shows what that cache holds and nothing else. -/
namespace BabylonHealthDemo
open JsonTree PathStore Callbacks

/- A launch may end at any block, of a trap too; its writes have been kept. -/
inductive Launches (F : Foundation Data) (store : Store σ) : List NetworkSuccess → σ → Prop where
  | installed : Launches F store [] store.empty
  | ended {earlier db events s} (launches : Launches F store earlier db)
      (ran : App.run F events = some s) :
      Launches F store (earlier ++ networkSuccesses F (providerEvents F events))
        (replay store db (writesOf s.provider.log))

def cached (successes : List NetworkSuccess) : Cache := successes.foldl Cache.record .empty

theorem replayRepresents {F : Foundation Data} (lawful : F.Lawful) {store : Store σ} (stores : store.Lawful)
    {db : σ} {c : Cache} (represents : Represents store db c) {events : List (ProviderEvent Data)} {w : Provider}
    (ran : Pool.run (dataProvider F) events = some w) :
    Represents store (replay store db (writesOf w.log)) ((networkSuccesses F events).foldl Cache.record c) := by
  rw [runWrites ran,networkSuccesses]
  induction deliveries F events using List.reverseRecOn with
  | nil => exact represents
  | append_singleton ds d ih =>
    rw [List.flatMap_append,List.flatMap_singleton,replayAppend,List.map_append,List.foldl_append]
    exact recordRepresents lawful stores ih d.2

theorem launchesRepresent {F : Foundation Data} (lawful : F.Lawful) {store : Store σ} (stores : store.Lawful)
    {successes : List NetworkSuccess} {db : σ} (launches : Launches F store successes db) :
    Represents store db (cached successes) := by
  induction launches with
  | installed => exact emptyRepresents stores
  | ended _ ran ih =>
    rw [cached,List.foldl_append]
    exact replayRepresents lawful stores ih (appRun ran).provider

/- Every snapshot shows its node as the launch found it, with the writes made since. -/
def UpToDate (store : Store σ) (db : σ) (w : Provider) (e : ProviderEvent Data) : Prop :=
  match observedNode w e with
  | none => True
  | some (node,snapshot) => snapshot = .of (store.value node (replay store db (writesOf w.log)))

def Current (F : Foundation Data) (store : Store σ) (db : σ) (events : List (ProviderEvent Data)) : Prop :=
  (Pool.observe (dataProvider F) (UpToDate store db) events).Forall id

def Cache.response (c : Cache) : CallArgs → CallResponse
  | .retrieveAllPosts => .posts (orFailure c.posts .unableToReadAllPostsData)
  | .retrievePostDetails userId postId =>
    .details (orFailure (both (c.user userId) (c.comments postId)) .unableToReadPostDetailsData)

def Answered (F : Foundation Data) (args : CallArgs) (events : List (CallEvent Data)) : Prop :=
  ∀ name node, args.node name = some node → ∃ snapshot, (callAnswers F args events).race name = .answered snapshot

theorem offlineWrites {F : Foundation Data} {events : List (ProviderEvent Data)} {w : Provider}
    (ran : Pool.run (dataProvider F) events = some w) (offline : networkSuccesses F events = []) :
    writesOf w.log = [] := by
  rw [runWrites ran,List.map_eq_nil_iff.mp offline,List.flatMap_nil]

theorem offlinePrefix {F : Foundation Data} {xs ys : List (ProviderEvent Data)}
    (offline : networkSuccesses F (xs ++ ys) = []) : networkSuccesses F xs = [] :=
  List.subset_nil.mp (offline ▸ successesPrefix F xs ys)

def Race.shows (value : Option α) : Race → Option α
  | .answered _ => value
  | _ => none

theorem showsAnswered {race : Race} (answered : ∃ snapshot, race = .answered snapshot) (value : Option α) :
    race.shows value = value := by
  obtain ⟨snapshot,rfl⟩ := answered
  rfl

theorem showsNothing {race : Race} (silent : ¬ ∃ snapshot, race = .answered snapshot) (value : Option α) :
    race.shows value = none := by
  cases race with
  | answered snapshot => exact absurd ⟨snapshot,rfl⟩ silent
  | _ => rfl

theorem readCached {F : Foundation Data} (lawful : F.Lawful) {store : Store σ} {db : σ}
    {events : List (ProviderEvent Data)} (current : Current F store db events)
    (offline : networkSuccesses F events = []) {w : Provider}
    (ran : Pool.run (dataProvider F) events = some w) {call : Nat}
    {i : Instance CallArgs CallState CallResponse} (found : w.instances[call]? = some i) {name : ReadName}
    {p : Path} (node : i.args.node name = some p) {decode : Json → Option α} (respects : Respects decode)
    {value : Option α} (holds : Holds store db p decode value) :
    readValue F decode ((callAnswers F i.args (own call events)).race name) =
      ((callAnswers F i.args (own call events)).race name).shows value := by
  cases won : (callAnswers F i.args (own call events)).race name with
  | «open» => rfl
  | timedOut => rfl
  | answered snapshot =>
    obtain ⟨xs,ys,before,j,r,rfl,ranBefore,foundJ,reading,place⟩ := decidedRead ran found won
    cases node.symm.trans place
    have shown : UpToDate store db before (.step call (readEvent name (.snapshot snapshot))) :=
      List.forall_iff_forall_mem.mp current _ (observed ranBefore)
    rw [UpToDate,snapshotSeen foundJ reading,offlineWrites ranBefore (offlinePrefix offline)] at shown
    simp only [replayNil] at shown
    subst shown
    exact heldValue lawful respects holds

theorem offlineCached {F : Foundation Data} (lawful : F.Lawful) {store : Store σ} {db : σ} {c : Cache}
    (represents : Represents store db c) {events : List (ProviderEvent Data)}
    (current : Current F store db events) (offline : networkSuccesses F events = []) {w : Provider}
    (ran : Pool.run (dataProvider F) events = some w) (alive : w.trap = none) {call : Nat}
    {i : Instance CallArgs CallState CallResponse} (found : w.instances[call]? = some i) {r : CallResponse}
    (member : r ∈ i.delivered) :
    (Answered F i.args (own call events) → r = c.response i.args) ∧
    (¬ Answered F i.args (own call events) → r = Cache.empty.response i.args) := by
  have reading : i.state.reading = true := by
    cases online : i.state.reading with
    | true => rfl
    | false =>
      obtain ⟨n,success,_⟩ := onlineSource ran found online member
      rw [List.map_eq_nil_iff.mp offline] at success
      cases success
  have source := offlineSource (ownAgrees ran alive found) reading member
  cases args : i.args with
  | retrieveAllPosts =>
    have posts := readCached lawful current offline ran found (show i.args.node .posts = some _ by rw [args]; rfl)
      (respectsArray respectsPost) represents.posts
    rw [args] at source posts
    rw [CallAnswers.fromReads,posts] at source
    subst source
    refine ⟨fun answered => ?_,fun silent => ?_⟩
    · rw [showsAnswered (answered .posts _ rfl)]
      rfl
    · rw [showsNothing]
      · rfl
      · refine fun answered => silent fun name node place => ?_
        cases name with
        | posts => exact answered
        | user => cases place
        | comments => cases place
  | retrievePostDetails userId postId =>
    have user := readCached lawful current offline ran found (show i.args.node .user = some _ by rw [args]; rfl)
      respectsUser (represents.user userId)
    have comments := readCached lawful current offline ran found
      (show i.args.node .comments = some _ by rw [args]; rfl) (respectsArray respectsComment)
      (represents.comments postId)
    rw [args] at source user comments
    rw [CallAnswers.fromReads,user,comments] at source
    subst source
    refine ⟨fun answered => ?_,fun silent => ?_⟩
    · rw [showsAnswered (answered .user _ rfl),showsAnswered (answered .comments _ rfl)]
      rfl
    · by_cases first : ∃ snapshot, (callAnswers F (.retrievePostDetails userId postId) (own call events)).race .user =
        .answered snapshot
      · have second : ¬ ∃ snapshot, (callAnswers F (.retrievePostDetails userId postId) (own call events)).race
            .comments = .answered snapshot := by
          refine fun answered => silent fun name node place => ?_
          cases name with
          | posts => cases place
          | user => exact first
          | comments => exact answered
        rw [showsNothing second]
        cases Race.shows _ _ <;> rfl
      · rw [showsNothing first]
        rfl

theorem refusedEmpty (call : ScreenCall) : Cache.empty.response call.retrieval = call.refusal := by
  cases call <;> rfl

theorem answerCached {F : Foundation Data} (lawful : F.Lawful) {store : Store σ} {db : σ} {c : Cache}
    (represents : Represents store db c) {events : List (AppEvent Data)} {s : App}
    (ran : App.run F events = some s) (alive : s.provider.trap = none)
    (current : Current F store db (providerEvents F events))
    (offline : networkSuccesses F (providerEvents F events) = []) {k : Nat} {asked : ScreenRequest}
    (found : s.screen.state.requests[k]? = some asked) {r : CallResponse}
    (member : r ∈ s.provider.deliveredBy k) :
    (Answered F asked.call.retrieval (events.filterMap (AppEvent.blockOf k)) →
      r = c.response asked.call.retrieval) ∧
    (¬ Answered F asked.call.retrieval (events.filterMap (AppEvent.blockOf k)) → r = asked.call.refusal) := by
  have agrees := appRun ran
  have there := List.getElem?_eq_getElem
    (agrees.paired.count ▸ (List.getElem?_eq_some_iff.mp found).1 : k < s.provider.instances.length)
  rw [deliveredAt there] at member
  have answer := offlineCached lawful represents current offline agrees.provider alive there member
  rw [← (agrees.paired.each k _ _ found there).1,ownProvided ran,refusedEmpty] at answer
  exact answer

theorem successCached {F : Foundation Data} (lawful : F.Lawful) {store : Store σ} {db : σ} {c : Cache}
    (represents : Represents store db c) {events : List (AppEvent Data)} {s : App}
    (ran : App.run F events = some s) (alive : s.provider.trap = none)
    (current : Current F store db (providerEvents F events))
    (offline : networkSuccesses F (providerEvents F events) = []) {k : Nat} {asked : ScreenRequest}
    (found : s.screen.state.requests[k]? = some asked) {r : CallResponse}
    (member : r ∈ s.provider.deliveredBy k) (success : r ≠ asked.call.refusal) :
    r = c.response asked.call.retrieval := by
  obtain ⟨inTime,late⟩ := answerCached lawful represents ran alive current offline found member
  by_cases answered : Answered F asked.call.retrieval (events.filterMap (AppEvent.blockOf k))
  · exact inTime answered
  · exact absurd (late answered) success

theorem relaunchReplays {F : Foundation Data} (lawful : F.Lawful) {store : Store σ} (stores : store.Lawful)
    {earlier : List NetworkSuccess} {db : σ} (launches : Launches F store earlier db)
    {events : List (AppEvent Data)} {s : App} (ran : App.run F events = some s)
    (alive : s.provider.trap = none) (current : Current F store db (providerEvents F events))
    (offline : networkSuccesses F (providerEvents F events) = []) :
    Represents store db (cached earlier) ∧ writesOf s.provider.log = [] ∧
    replay store db (writesOf s.provider.log) = db ∧
    (∀ (k : Nat) asked, s.screen.state.requests[k]? = some asked → ∀ r ∈ s.provider.deliveredBy k,
      (Answered F asked.call.retrieval (events.filterMap (AppEvent.blockOf k)) →
        r = (cached earlier).response asked.call.retrieval) ∧
      (¬ Answered F asked.call.retrieval (events.filterMap (AppEvent.blockOf k)) → r = asked.call.refusal)) ∧
    (s.screen.state.view.postsDataSource ≠ [] →
      (cached earlier).posts = some s.screen.state.view.postsDataSource) ∧
    (∀ p ∈ s.screen.state.view.pushed, ∃ post ∈ s.screen.state.view.postsDataSource, ∃ user comments,
      (cached earlier).user post.userId = some user ∧ (cached earlier).comments post.postId = some comments ∧
      p = .make post ⟨user,comments⟩) := by
  have represents := launchesRepresent lawful stores launches
  have agrees := appRun ran
  have silent := offlineWrites agrees.provider offline
  refine ⟨represents,silent,by rw [silent,replayNil],fun k asked found r member =>
    answerCached lawful represents ran alive current offline found member,?_,?_⟩
  · intro filled
    obtain ⟨asked,found,call⟩ := (rowsRun agrees.screen).first
    have answer := successCached lawful represents ran alive current offline found
      (by rw [rowsSource ran alive filled]; exact List.mem_cons_self) (by rw [call]; simp [ScreenCall.refusal])
    rw [call] at answer
    simp only [ScreenCall.retrieval,Cache.response,CallResponse.posts.injEq] at answer
    cases held : (cached earlier).posts with
    | none => rw [held] at answer; cases answer
    | some list =>
      rw [held] at answer
      cases answer
      rfl
  · intro p member
    have pushes := pushSource ran alive
    obtain ⟨n,inside,rfl⟩ := List.getElem_of_mem member
    obtain ⟨asked,post,details,found,call,delivered,made⟩ :=
      (List.forall₂_iff_get.mp pushes).2 n inside (pushes.length_eq ▸ inside)
    change s.screen.state.view.pushed[n] = _ at made
    rw [made]
    -- request 0 displays the posts, so this one belongs to a tap
    have later : s.pushesFrom.get ⟨n,pushes.length_eq ▸ inside⟩ ≠ 0 := by
      intro zero
      obtain ⟨first,foundFirst,display⟩ := (rowsRun agrees.screen).first
      rw [zero] at found
      cases found.symm.trans foundFirst
      cases call.symm.trans display
    obtain ⟨row,listed,tapped⟩ := (rowsRun agrees.screen).tapped _ asked later found
    cases call.symm.trans tapped
    have answer := successCached lawful represents ran alive current offline found
      (by rw [delivered]; exact List.mem_cons_self) (by rw [call]; simp [ScreenCall.refusal])
    rw [call] at answer
    simp only [ScreenCall.retrieval,Cache.response,CallResponse.details.injEq] at answer
    refine ⟨post,listed,?_⟩
    cases user : (cached earlier).user post.userId with
    | none => rw [user] at answer; cases answer
    | some u =>
      cases comments : (cached earlier).comments post.postId with
      | none => rw [user,comments] at answer; cases answer
      | some list =>
        rw [user,comments] at answer
        cases answer
        exact ⟨u,list,rfl,rfl,rfl⟩

def tappedDatabase : Node := replay keyTree keyTree.empty
  [⟨["posts"],encodeArray Post.encode [samplePost 2,samplePost 4]⟩,⟨["users","1"],(sampleUser 1).encode⟩,
    ⟨["comments","4"],encodeArray Comment.encode [sampleComment 4 3]⟩]

def relaunchEvents : List (AppEvent Json) := List.flatten
  [[.hud .operation,.block 0 (.posts (.reply ⟨none,some (.external "offline")⟩)),
      .block 0 (.posts (.read (.snapshot (.of (some (encodeArray Post.encode [samplePost 2,samplePost 4])))))),
      .hud .operation,.hud (.wait Constants.hudDismissTime),.hud (.delayOver 0),.hud (.fadeOutEnded 0)],
    [.didSelectRow 1,.hud .operation,.block 1 (.details (.load (.userReply ⟨none,none⟩))),
      .block 1 (.details (.load (.commentsReply ⟨none,none⟩))),.block 1 (.details (.load .notify)),
      .block 1 (.details (.read (.comments (.snapshot
        (.of (some (encodeArray Comment.encode [sampleComment 4 3]))))))),
      .block 1 (.details (.read (.user (.snapshot (.of (some (sampleUser 1).encode)))))),
      .block 1 (.details (.read .notify))],
    [.hud .operation,.hud (.wait Constants.hudDismissTime),.hud (.delayOver 0),.hud (.fadeOutEnded 0)]]

theorem tappedReplayed : ∃ earlier s, Launches plainFoundation keyTree earlier tappedDatabase ∧
    App.run plainFoundation relaunchEvents = some s ∧
    s.screen.state.view =
      ⟨[samplePost 2,samplePost 4],[.make (samplePost 4) ⟨sampleUser 1,[sampleComment 4 3]⟩],[]⟩ ∧
    Represents keyTree tappedDatabase (cached earlier) ∧ writesOf s.provider.log = [] ∧
    (cached earlier).posts = some [samplePost 2,samplePost 4] ∧
    ∃ post ∈ [samplePost 2,samplePost 4], ∃ user comments, (cached earlier).user post.userId = some user ∧
      (cached earlier).comments post.postId = some comments ∧
      PostDetailsViewModel.make (samplePost 4) ⟨sampleUser 1,[sampleComment 4 3]⟩ =
        .make post ⟨user,comments⟩ := by
  have first : App.run plainFoundation tappedEvents = some _ := rfl
  have launches : Launches plainFoundation keyTree _ tappedDatabase := .ended .installed first
  have posts : DataSnapshot.of (some (encodeArray Post.encode [samplePost 2,samplePost 4])) =
      .of (keyTree.value ["posts"] tappedDatabase) := rfl
  have comments : DataSnapshot.of (some (encodeArray Comment.encode [sampleComment 4 3])) =
      .of (keyTree.value ["comments","4"] tappedDatabase) := rfl
  have user : DataSnapshot.of (some (sampleUser 1).encode) =
      .of (keyTree.value ["users","1"] tappedDatabase) := rfl
  have current : Current plainFoundation keyTree tappedDatabase
      (providerEvents plainFoundation relaunchEvents) := by
    unfold Current
    exact ⟨trivial,trivial,posts,trivial,trivial,trivial,trivial,comments,user,trivial⟩
  have ran : App.run plainFoundation relaunchEvents = some _ := rfl
  obtain ⟨represents,silent,_,_,rows,pushed⟩ :=
    relaunchReplays plainLawful keyTreeLawful launches ran rfl current rfl
  exact ⟨_,_,launches,ran,rfl,represents,silent,rows (List.cons_ne_nil _ _),pushed _ List.mem_cons_self⟩

theorem emptyUsersTrap {F : Foundation Data} {s : CallState} {reply : Reply Data} {t : Trap}
    (answer : userAnswer F reply = .error t) {block : Except Trap (Out Action CallState CallResponse)}
    (ok : (dataProvider F).step s (.details (.load (.userReply reply))) = some block) : block = .error t := by
  cases s with
  | posts s => cases ok
  | details s =>
    obtain ⟨inner,stepped,rfl⟩ := Option.map_eq_some_iff.mp ok
    obtain ⟨load,loaded,last⟩ := Option.bind_eq_some_iff.mp stepped
    obtain ⟨answered,replied,more⟩ := Option.bind_eq_some_iff.mp loaded
    have trapped := (taskReplySource replied).2
    change answered = (userAnswer F reply).map _ at trapped
    rw [answer] at trapped
    subst trapped
    cases more
    cases last
    rfl

theorem providedSnoc {F : Foundation Data} {events : List (AppEvent Data)} {s : App}
    (ran : App.run F events = some s) (e : AppEvent Data) :
    providerEvents F (events ++ [e]) = providerEvents F events ++ s.provided e := by
  obtain ⟨first,launch,_⟩ := launched F
  simp only [App.run,launch,Option.bind_some] at ran
  simp only [providerEvents,launch,Option.elim_some,Steps.watchSnoc ran,List.cons_append]

theorem launchEnds {F : Foundation Data} (lawful : F.Lawful) {store : Store σ} (stores : store.Lawful)
    {earlier : List NetworkSuccess} {db : σ} (sessions : Sessions F store earlier db)
    {events : List (AppEvent Data)} {s : App} (ran : App.run F events = some s) {e : AppEvent Data} {next : App}
    (ok : s.step F e = some next) (honest : Honest F store db (providerEvents F (events ++ [e]))) :
    next.provider.trap ≠ none ↔ ∃ call reply, e = .block call (.details (.load (.userReply reply))) ∧
      body F (decodeArray User.decode) reply = some [] := by
  have agrees := appRun ran
  have later : App.run F (events ++ [e]) = some next := by
    rw [appContinues,ran]
    exact (Steps.runSingle s e).trans ok
  have alive := stepAlive ok
  simp only [App.step,alive,Option.isSome_none,Bool.false_eq_true,if_false] at ok
  cases e with
  | didSelectRow row =>
    have live := (tapAgrees agrees alive ok).2
    constructor
    · exact absurd live
    · rintro ⟨_,_,same,_⟩
      cases same
  | hud e =>
    obtain ⟨_,_,_,_,_,_,_,rfl,_⟩ := hudSource alive ok
    constructor
    · exact absurd alive
    · rintro ⟨_,_,same,_⟩
      cases same
  | block call e =>
    constructor
    · intro trapped
      obtain ⟨t,raised⟩ := Option.ne_none_iff_exists'.mp trapped
      have provided := (appRun later).provider
      obtain ⟨before,other,f,old,i,split,_,_,_,_,cause⟩ := providerTrap provided raised
      rw [providedSnoc ran] at split
      obtain ⟨_,same⟩ := List.append_inj' split rfl
      cases same
      rcases cause with ⟨_,reply,rfl,answer⟩ | ⟨rfl,_⟩
      · rcases userAnswerCases F reply with ⟨empty,_⟩ | ⟨_,response,answered,_⟩
        · exact ⟨_,reply,rfl,empty⟩
        · cases answer.symm.trans answered
      · exact absurd raised (trustedAlive lawful stores (sessionsTrusted lawful stores sessions) honest provided)
    · rintro ⟨_,reply,same,empty⟩
      cases same
      obtain ⟨provider,stepped,same⟩ := Option.bind_eq_some_iff.mp ok
      obtain ⟨screen,_,reached⟩ := Option.bind_eq_some_iff.mp same
      cases reached
      have answer : userAnswer F reply = .error .firstUserIsNil := by
        rcases userAnswerCases F reply with ⟨_,answer⟩ | ⟨other,_⟩
        · exact answer
        · exact absurd empty other
      cases (poolStepCases stepped).2 with
      | stepTrap _ _ => exact Option.some_ne_none _
      | stepped _ block => cases emptyUsersTrap answer block

theorem relaunchEnds : ∃ s next, App.run plainFoundation (relaunchEvents.take 9) = some s ∧
    s.step plainFoundation (.block 1 (.details (.load (.userReply ⟨some (.array []),none⟩)))) = some next ∧
    next.provider.trap ≠ none := by
  have first : App.run plainFoundation tappedEvents = some _ := rfl
  have sessions : Sessions plainFoundation keyTree _ tappedDatabase :=
    .ended .installed (appRun first).provider (List.Sublist.refl _)
  have posts : DataSnapshot.of (some (encodeArray Post.encode [samplePost 2,samplePost 4])) =
      .of (keyTree.value ["posts"] tappedDatabase) := rfl
  have honest : Honest plainFoundation keyTree tappedDatabase (providerEvents plainFoundation
      (relaunchEvents.take 9 ++ [.block 1 (.details (.load (.userReply ⟨some (.array []),none⟩)))])) := by
    unfold Honest
    exact ⟨trivial,trivial,⟨[],List.nil_sublist _,posts⟩,trivial,trivial⟩
  have ran : App.run plainFoundation (relaunchEvents.take 9) = some _ := rfl
  have ends := launchEnds plainLawful keyTreeLawful sessions ran
    (show _ = some _ from rfl) honest
  exact ⟨_,_,ran,rfl,ends.mpr ⟨1,_,rfl,rfl⟩⟩

end BabylonHealthDemo
