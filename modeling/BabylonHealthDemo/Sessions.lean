import BabylonHealthDemo.CacheKeys

/-! Launches of the app one after another. A session is a run of the provider that may
stop at any block, with or without a trap; of its writes any may be lost or refused.
The next session starts from what is left. Every database so reached represents a
cache of delivered values, so a session reads back only what the network delivered
to it or to an earlier one, and no snapshot it is shown can end it. -/
namespace BabylonHealthDemo
open JsonTree PathStore Callbacks

def networkSuccesses (F : Foundation Data) (events : List (ProviderEvent Data)) : List NetworkSuccess :=
  (deliveries F events).map Prod.snd

inductive Sessions (F : Foundation Data) (store : Store σ) : List NetworkSuccess → σ → Prop where
  | installed : Sessions F store [] store.empty
  | ended {earlier db events w survivors} (sessions : Sessions F store earlier db)
      (ran : Pool.run (dataProvider F) events = some w) (kept : survivors.Sublist (writesOf w.log)) :
      Sessions F store (earlier ++ networkSuccesses F events) (replay store db survivors)

/- Each value of the cache was delivered, and stands under its own key. -/
structure Backed (successes : List NetworkSuccess) (c : Cache) : Prop where
  posts : ∀ list, c.posts = some list → .posts list ∈ successes
  user : ∀ k user, c.user k = some user → user.userId = k ∧
    ∃ userId postId comments, .details userId postId user comments ∈ successes
  comments : ∀ k comments, c.comments k = some comments →
    (∃ first, comments.head? = some first ∧ first.postId = k) ∧
    ∃ userId postId user, .details userId postId user comments ∈ successes

def Trusted (store : Store σ) (successes : List NetworkSuccess) (db : σ) : Prop :=
  ∃ c, Represents store db c ∧ Backed successes c

theorem backedMore {xs ys : List NetworkSuccess} {c : Cache} (backed : Backed xs c) (more : xs ⊆ ys) :
    Backed ys c where
  posts list found := more (backed.posts list found)
  user k user found :=
    have ⟨key,userId,postId,comments,member⟩ := backed.user k user found
    ⟨key,userId,postId,comments,more member⟩
  comments k comments found :=
    have ⟨key,userId,postId,user,member⟩ := backed.comments k comments found
    ⟨key,userId,postId,user,more member⟩

theorem storedTrusted {store : Store σ} (stores : store.Lawful) {successes : List NetworkSuccess} {db : σ}
    (trusted : Trusted store successes db) {n : NetworkSuccess} (member : n ∈ successes) {write : Write}
    (stored : Stored n write) : Trusted store successes (store.setValue write.path write.value db) := by
  obtain ⟨c,represents,backed⟩ := trusted
  cases stored with
  | @posts list object same =>
    refine ⟨_,postsRepresents stores represents same,?_,backed.user,backed.comments⟩
    intro other found
    by_cases empty : list = []
    · simp [empty] at found
    · simp only [if_neg empty,Option.some.injEq] at found
      exact found ▸ member
  | @user userId postId user comments object same =>
    refine ⟨_,userRepresents stores represents same,backed.posts,?_,backed.comments⟩
    intro k other found
    by_cases hit : k = user.userId
    · subst hit
      simp only [Function.update_self,Option.some.injEq] at found
      exact found ▸ ⟨rfl,_,_,_,member⟩
    · simp only [Function.update_of_ne hit] at found
      exact backed.user k other found
  | @comments userId postId user first rest list same =>
    refine ⟨_,commentsRepresents stores represents first.postId (List.cons_ne_nil _ _) same,backed.posts,
      backed.user,?_⟩
    intro k other found
    by_cases hit : k = first.postId
    · subst hit
      simp only [Function.update_self,Option.some.injEq] at found
      exact found ▸ ⟨⟨first,rfl,rfl⟩,_,_,_,member⟩
    · simp only [Function.update_of_ne hit] at found
      exact backed.comments k other found

theorem replayTrusted {store : Store σ} (stores : store.Lawful) {successes : List NetworkSuccess} {db : σ}
    (trusted : Trusted store successes db) {writes : List Write}
    (source : ∀ write ∈ writes, ∃ n ∈ successes, Stored n write) :
    Trusted store successes (replay store db writes) := by
  induction writes using List.reverseRecOn with
  | nil => exact trusted
  | append_singleton writes write ih =>
    obtain ⟨n,member,stored⟩ := source write (by simp)
    rw [replaySnoc]
    exact storedTrusted stores (ih fun write inside => source write (List.mem_append_left _ inside)) member stored

theorem survivorsTrusted {F : Foundation Data} (lawful : F.Lawful) {store : Store σ} (stores : store.Lawful)
    {earlier : List NetworkSuccess} {db : σ} (trusted : Trusted store earlier db)
    {events : List (ProviderEvent Data)} {w : Provider} (ran : Pool.run (dataProvider F) events = some w)
    {survivors : List Write} (kept : survivors.Sublist (writesOf w.log)) :
    Trusted store (earlier ++ networkSuccesses F events) (replay store db survivors) := by
  obtain ⟨c,represents,backed⟩ := trusted
  refine replayTrusted stores ⟨c,represents,backedMore backed (List.subset_append_left _ _)⟩ ?_
  intro write member
  obtain ⟨d,inside,stored⟩ := runStored lawful ran (kept.subset member)
  exact ⟨d.2,List.mem_append_right _ (List.mem_map_of_mem inside),stored⟩

theorem sessionsTrusted {F : Foundation Data} (lawful : F.Lawful) {store : Store σ} (stores : store.Lawful)
    {successes : List NetworkSuccess} {db : σ} (sessions : Sessions F store successes db) :
    Trusted store successes db := by
  induction sessions with
  | installed => exact ⟨.empty,emptyRepresents stores,nofun,nofun,nofun⟩
  | ended _ ran kept ih => exact survivorsTrusted lawful stores ih ran kept

/- A snapshot shows its node as the session found it, with those of the writes made
since that have not been refused again. -/
def Shown (store : Store σ) (db : σ) (w : Provider) (e : ProviderEvent Data) : Prop :=
  match observedNode w e with
  | none => True
  | some (node,snapshot) => ∃ seen : List Write, seen.Sublist (writesOf w.log) ∧
      snapshot = .of (store.value node (replay store db seen))

def Honest (F : Foundation Data) (store : Store σ) (db : σ) (events : List (ProviderEvent Data)) : Prop :=
  (Pool.observe (dataProvider F) (Shown store db) events).Forall id

theorem successesPrefix (F : Foundation Data) (xs ys : List (ProviderEvent Data)) :
    networkSuccesses F xs ⊆ networkSuccesses F (xs ++ ys) := by
  obtain ⟨rest,same⟩ := deliveriesPrefix F xs ys
  simp only [networkSuccesses,← same,List.map_append]
  exact List.subset_append_left _ _

theorem snapshotSeen {before : Provider} {call : Nat} {j : Instance CallArgs CallState CallResponse}
    (found : before.instances[call]? = some j) {name : ReadName} {r : Read} (reading : j.state.read name = some r)
    (snapshot : DataSnapshot) :
    observedNode before (.step call (readEvent name (.snapshot snapshot) : CallEvent Data)) =
      some (r.node,snapshot) := by
  have named : snapshotOf (readEvent name (.snapshot snapshot) : CallEvent Data) = some (name,snapshot) := by
    cases name <;> rfl
  simp [observedNode,found,named,reading]

theorem shownTrusted {F : Foundation Data} (lawful : F.Lawful) {store : Store σ} (stores : store.Lawful)
    {earlier : List NetworkSuccess} {db : σ} (trusted : Trusted store earlier db)
    {xs ys : List (ProviderEvent Data)} {call : Nat} {name : ReadName} {snapshot : DataSnapshot}
    (honest : Honest F store db (xs ++ .step call (readEvent name (.snapshot snapshot)) :: ys))
    {before : Provider} (ran : Pool.run (dataProvider F) xs = some before)
    {j : Instance CallArgs CallState CallResponse} (found : before.instances[call]? = some j) {r : Read}
    (reading : j.state.read name = some r) :
    ∃ now, Trusted store (earlier ++ networkSuccesses F xs) now ∧ snapshot = .of (store.value r.node now) := by
  have shown : Shown store db before (.step call (readEvent name (.snapshot snapshot))) :=
    List.forall_iff_forall_mem.mp honest _ (observed ran)
  rw [Shown,snapshotSeen found reading] at shown
  obtain ⟨survivors,kept,same⟩ := shown
  exact ⟨_,survivorsTrusted lawful stores trusted ran kept,same⟩

theorem decidedSource {F : Foundation Data} {args : CallArgs} {events : List (CallEvent Data)}
    {name : ReadName} {snapshot : DataSnapshot}
    (won : (callAnswers F args events).race name = .answered snapshot) :
    readEvent name (.snapshot snapshot) ∈ events := by
  induction events using List.reverseRecOn with
  | nil => cases args <;> cases name <;> cases won
  | append_singleton events e ih =>
    rw [callAnswersSnoc] at won
    rcases raceMoves F (callAnswers F args events) e name with same | ⟨r,rfl,moved⟩
    · exact List.mem_append_left _ (ih (same.symm.trans won))
    · rw [moved] at won
      cases before : (callAnswers F args events).race name with
      | «open» =>
        rw [before] at won
        cases r with
        | timeout => cases won
        | snapshot s =>
          cases won
          simp
      | _ =>
        rw [raceClosed (by rw [before]; exact nofun)] at won
        exact List.mem_append_left _ (ih won)

theorem ownSource {call : Nat} {events : List (ProviderEvent Data)} {e : CallEvent Data}
    (member : e ∈ own call events) : .step call e ∈ events := by
  obtain ⟨event,inside,mine⟩ := List.mem_filterMap.mp member
  cases event with
  | spawn args => cases mine
  | step other block =>
    simp only [Option.ite_none_right_eq_some,Option.some.injEq] at mine
    obtain ⟨rfl,rfl⟩ := mine
    exact inside

theorem decidedRead {F : Foundation Data} {events : List (ProviderEvent Data)} {w : Provider}
    (ran : Pool.run (dataProvider F) events = some w) {call : Nat}
    {i : Instance CallArgs CallState CallResponse} (found : w.instances[call]? = some i) {name : ReadName}
    {snapshot : DataSnapshot} (won : (callAnswers F i.args (own call events)).race name = .answered snapshot) :
    ∃ xs ys before j r, events = xs ++ .step call (readEvent name (.snapshot snapshot)) :: ys ∧
      Pool.run (dataProvider F) xs = some before ∧ before.instances[call]? = some j ∧
      j.state.read name = some r ∧ i.args.node name = some r.node := by
  obtain ⟨xs,ys,rfl⟩ := List.append_of_mem (ownSource (decidedSource won))
  obtain ⟨before,after,ranBefore,step,_⟩ := runSplit ran
  obtain ⟨alive,stepped⟩ := poolStepCases step
  have enabled : ∃ j block, before.instances[call]? = some j ∧
      (dataProvider F).step j.state (readEvent name (.snapshot snapshot)) = some block := by
    cases stepped with
    | stepTrap foundJ trapped => exact ⟨_,_,foundJ,trapped⟩
    | stepped foundJ block => exact ⟨_,_,foundJ,block⟩
  obtain ⟨j,block,foundJ,ok⟩ := enabled
  obtain ⟨r,reading,_⟩ := readEnabled ok
  obtain ⟨k,foundK,sameArgs,_⟩ := instanceKeptRun ranBefore ran foundJ
  cases Option.some.inj (found.symm.trans foundK)
  have node := (callReads (ownAgrees ranBefore alive foundJ) reading).1
  exact ⟨xs,ys,before,j,r,rfl,ranBefore,foundJ,reading,sameArgs ▸ node⟩

theorem readTrusted {F : Foundation Data} (lawful : F.Lawful) {store : Store σ} (stores : store.Lawful)
    {earlier : List NetworkSuccess} {db : σ} (trusted : Trusted store earlier db)
    {events : List (ProviderEvent Data)} (honest : Honest F store db events) {w : Provider}
    (ran : Pool.run (dataProvider F) events = some w) {call : Nat}
    {i : Instance CallArgs CallState CallResponse} (found : w.instances[call]? = some i) {name : ReadName}
    {decode : Json → Option α} {x : α}
    (value : readValue F decode ((callAnswers F i.args (own call events)).race name) = some x) :
    ∃ now node, Trusted store (earlier ++ networkSuccesses F events) now ∧ i.args.node name = some node ∧
      readValue F decode (.answered (.of (store.value node now))) = some x := by
  cases won : (callAnswers F i.args (own call events)).race name with
  | «open» => rw [won] at value; cases value
  | timedOut => rw [won] at value; cases value
  | answered snapshot =>
    obtain ⟨xs,ys,before,j,r,rfl,ranBefore,foundJ,reading,node⟩ := decidedRead ran found won
    obtain ⟨now,⟨c,represents,backed⟩,rfl⟩ := shownTrusted lawful stores trusted honest ranBefore foundJ reading
    rw [won] at value
    refine ⟨now,r.node,⟨c,represents,backedMore backed ?_⟩,node,value⟩
    exact List.append_subset.mpr ⟨List.subset_append_left _ _,
      List.Subset.trans (successesPrefix F xs _) (List.subset_append_right _ _)⟩

/- The network half of a call has failed, and its database read is there. -/
def CallState.reading : CallState → Bool
  | .posts s => s.read.isSome
  | .details s => s.read.isSome

theorem postsCompletes {F : Foundation Data} {s next : RetrieveAllPosts} {e : PostsEvent Data}
    {out : List (Effect Action (ResponseType (List Post)))} (ok : s.step F e = some (.ok (next,out))) :
    (s.read.isSome = true → next.read.isSome = true) ∧
    (completions out = [] ∨ networkSuccess F (.posts s) (.posts e) ≠ none ∨ next.read.isSome = true) := by
  cases postsRan ok with
  | read _ _ _ => exact ⟨fun _ => rfl,Or.inr (Or.inr rfl)⟩
  | @reply reply _ _ _ _ answered handled =>
    obtain ⟨_,replied⟩ := taskReplySource answered
    have values : networkSuccess F (.posts s) (.posts (.reply reply)) =
        (postsAnswer F reply).value.map .posts := rfl
    cases replied
    obtain ⟨_,completed,same⟩ := okBind handled
    obtain ⟨_,first,rest⟩ := okBind completed
    cases rest
    cases same
    change RetrieveAllPosts.networkCompletion F _ (postsAnswer F reply) = _ at first
    rw [values]
    cases response : postsAnswer F reply with
    | success list =>
      rw [response] at first
      cases first
      exact ⟨id,Or.inr (Or.inl (Option.some_ne_none _))⟩
    | failure e =>
      rw [response] at first
      cases first
      exact ⟨fun _ => rfl,Or.inl rfl⟩

theorem detailsCompletes {F : Foundation Data} {s next : RetrievePostDetails} {e : DetailsEvent Data}
    {out : List (Effect Action (ResponseType PostDetails))} (ok : s.step F e = some (.ok (next,out))) :
    (s.read.isSome = true → next.read.isSome = true) ∧
    (completions out = [] ∨ networkSuccess F (.details s) (.details e) ≠ none ∨ next.read.isSome = true) := by
  cases detailsRan ok with
  | read _ _ _ => exact ⟨fun _ => rfl,Or.inr (Or.inr rfl)⟩
  | @load _ load inner _ _ stepped handled =>
    have silent : completions inner = [] → (s.read.isSome = true → next.read.isSome = true) ∧
        completions out = [] := by
      intro quiet
      obtain ⟨_,passed,none,_⟩ := handleSilent (RetrievePostDetails.networkCompletion F)
        {s with load := load} quiet
      cases passed.symm.trans handled
      exact ⟨id,none⟩
    cases loadRan stepped with
    | userReply _ joined =>
      obtain ⟨kept,none⟩ := silent (handleQuiet (fun v r next out ran => by
        rw [userSilent v r next out ran]; rfl) joined)
      exact ⟨kept,Or.inl none⟩
    | commentsReply _ joined =>
      obtain ⟨kept,none⟩ := silent (handleQuiet (fun v r next out ran => by
        rw [commentsSilent v r next out ran]; rfl) joined)
      exact ⟨kept,Or.inl none⟩
    | notify _ notified =>
      obtain ⟨response,rfl,value⟩ := notifyRan notified
      obtain ⟨_,first,same⟩ := okBind handled
      cases response with
      | success d =>
        cases first
        cases same
        exact ⟨id,Or.inr (Or.inl (by simp [networkSuccess,← value]))⟩
      | failure error =>
        cases first
        cases same
        exact ⟨fun _ => rfl,Or.inl rfl⟩

theorem callCompletes {F : Foundation Data} {s next : CallState} {e : CallEvent Data}
    {out : List (Effect Action CallResponse)} (ok : (dataProvider F).step s e = some (.ok (next,out))) :
    (s.reading = true → next.reading = true) ∧
    (completions out = [] ∨ networkSuccess F s e ≠ none ∨ next.reading = true) := by
  cases callRan ok with
  | posts stepped =>
    rw [completionsRelabel,List.map_eq_nil_iff]
    exact postsCompletes stepped
  | details stepped =>
    rw [completionsRelabel,List.map_eq_nil_iff]
    exact detailsCompletes stepped

theorem onlineSource {F : Foundation Data} {events : List (ProviderEvent Data)} {w : Provider}
    (ran : Pool.run (dataProvider F) events = some w) {call : Nat}
    {i : Instance CallArgs CallState CallResponse} (found : w.instances[call]? = some i)
    (online : i.state.reading = false) {r : CallResponse} (member : r ∈ i.delivered) :
    ∃ n, (call,n) ∈ deliveries F events ∧ r = n.response := by
  refine runInvariant (m := dataProvider F) (fun events w => ∀ call i, w.instances[call]? = some i →
    i.state.reading = false → ∀ r ∈ i.delivered, ∃ n, (call,n) ∈ deliveries F events ∧ r = n.response)
    (fun _ _ none => by simp [Pool.empty] at none) ?_ ran call i found online r member
  intro events w e next ran held _ stepped call i found online r member
  rw [deliveriesSnoc ran]
  have earlier : ∀ j, w.instances[call]? = some j → j.state.reading = false → r ∈ j.delivered →
      ∃ n, (call,n) ∈ deliveries F events ++ providerSuccess F w e ∧ r = n.response := by
    intro j foundJ onlineJ old
    obtain ⟨n,inside,same⟩ := held call j foundJ onlineJ r old
    exact ⟨n,List.mem_append_left _ inside,same⟩
  cases stepped with
  | spawnTrap _ => exact earlier i found online member
  | stepTrap _ _ => exact earlier i found online member
  | @spawned args s out started =>
    rcases Nat.lt_or_ge call w.instances.length with old | new
    · rw [List.getElem?_append_left old] at found
      exact earlier i found online member
    · obtain ⟨_,_,starts,silent,_⟩ := callStarts F args
      cases started.symm.trans starts
      rw [List.getElem?_append_right new,List.getElem?_singleton] at found
      split at found <;> try contradiction
      cases found
      rw [silent] at member
      cases member
  | @stepped other j e s out foundJ block =>
    by_cases same : other = call
    · subst same
      rw [List.getElem?_set_self (List.getElem?_eq_some_iff.mp foundJ).1] at found
      cases found
      obtain ⟨kept,source⟩ := callCompletes block
      have onlineJ : j.state.reading = false := by
        cases was : j.state.reading with
        | false => rfl
        | true => exact absurd (kept was) (by rw [online]; exact Bool.false_ne_true)
      rcases List.mem_append.mp member with old | new
      · exact earlier j foundJ onlineJ old
      · rcases source with none | succeeded | reading
        · rw [none] at new
          cases new
        · obtain ⟨n,success⟩ := Option.ne_none_iff_exists'.mp succeeded
          obtain ⟨a,agrees⟩ := instanceAgrees ran (List.mem_iff_getElem?.mpr ⟨_,foundJ⟩)
          cases callStepped agrees block with
          | ran _ _ responses =>
            rw [responses n success] at new
            refine ⟨n,List.mem_append_right _ ?_,List.mem_singleton.mp new⟩
            simp [providerSuccess,foundJ,success]
        · rw [online] at reading
          cases reading
    · rw [List.getElem?_set_ne same] at found
      exact earlier i found online member

def CallAnswers.fromReads (F : Foundation Data) (a : CallAnswers) : CallArgs → CallResponse
  | .retrieveAllPosts => .posts (orFailure (readValue F (decodeArray Post.decode) (a.race .posts))
      .unableToReadAllPostsData)
  | .retrievePostDetails _ _ => .details (orFailure (both (readValue F User.decode (a.race .user))
      (readValue F (decodeArray Comment.decode) (a.race .comments))) .unableToReadPostDetailsData)

theorem offlineSource {F : Foundation Data} {args : CallArgs} {a : CallAnswers} {s : CallState}
    {responses : List CallResponse} (agrees : CallAgrees F args a s responses) (reading : s.reading = true)
    {r : CallResponse} (member : r ∈ responses) : r = a.fromReads F args := by
  cases agrees with
  | @posts a s responses agrees =>
    cases agrees with
    | loading _ _ read _ => simp [CallState.reading,read] at reading
    | loaded _ read _ _ => simp [CallState.reading,read] at reading
    | @reading _ response _ value _ _ _ _ =>
      cases response with
      | none => cases member
      | some _ =>
        have same : r = .posts (postsSpec F a) := List.mem_singleton.mp member
        refine same.trans ?_
        rw [postsSpec,value,Option.none_or]
        rfl
  | @details a s responses agrees =>
    cases agrees with
    | loading _ read _ => simp [CallState.reading,read] at reading
    | loaded _ read _ _ => simp [CallState.reading,read] at reading
    | @reading _ _ _ ran _ value _ _ _ =>
      cases ran with
      | false => cases member
      | true =>
        have same : r = .details (detailsSpec F a) := List.mem_singleton.mp member
        refine same.trans ?_
        rw [detailsSpec,value,Option.none_or]
        rfl

/- A value that a call of a session delivers came from the network: a posts list as one,
details as one and to this very call, or else the user and the comments each under the
key asked for, to whichever calls. -/
def Vouched (session : List (Nat × NetworkSuccess)) (successes : List NetworkSuccess) (call : Nat) :
    CallArgs → CallResponse → Prop
  | .retrieveAllPosts,.posts (.success list) => .posts list ∈ successes
  | .retrievePostDetails userId postId,.details (.success d) =>
    (call,.details userId postId d.user d.comments) ∈ session ∨
    (d.user.userId = userId ∧ ∃ u p comments, .details u p d.user comments ∈ successes) ∧
    (∃ first, d.comments.head? = some first ∧ first.postId = postId) ∧
      ∃ u p user, .details u p user d.comments ∈ successes
  | .retrieveAllPosts,.posts (.failure _) => True
  | .retrievePostDetails _ _,.details (.failure _) => True
  | _,_ => False

theorem onlineVouched {session : List (Nat × NetworkSuccess)} {successes : List NetworkSuccess} {call : Nat}
    {n : NetworkSuccess} (own : (call,n) ∈ session) (member : n ∈ successes) :
    Vouched session successes call n.args n.response := by
  cases n with
  | posts list => exact member
  | details userId postId user comments => exact Or.inl own

theorem offlineVouched {F : Foundation Data} (lawful : F.Lawful) {store : Store σ} (stores : store.Lawful)
    {earlier : List NetworkSuccess} {db : σ} (trusted : Trusted store earlier db)
    {events : List (ProviderEvent Data)} (honest : Honest F store db events) {w : Provider}
    (ran : Pool.run (dataProvider F) events = some w) (alive : w.trap = none) {call : Nat}
    {i : Instance CallArgs CallState CallResponse} (found : w.instances[call]? = some i)
    (reading : i.state.reading = true) {r : CallResponse} (member : r ∈ i.delivered) :
    Vouched (deliveries F events) (earlier ++ networkSuccesses F events) call i.args r := by
  have source := offlineSource (ownAgrees ran alive found) reading member
  cases args : i.args with
  | retrieveAllPosts =>
    rw [args,CallAnswers.fromReads] at source
    subst source
    cases value : readValue F (decodeArray Post.decode) ((callAnswers F .retrieveAllPosts
        (own call events)).race .posts) with
    | none => exact trivial
    | some list =>
      obtain ⟨now,node,⟨c,represents,backed⟩,place,read⟩ :=
        readTrusted lawful stores trusted honest ran found (by rw [args]; exact value)
      rw [args] at place
      cases place
      rw [heldValue lawful (respectsArray respectsPost) represents.posts] at read
      exact backed.posts list read
  | retrievePostDetails userId postId =>
    rw [args,CallAnswers.fromReads] at source
    subst source
    cases userValue : readValue F User.decode ((callAnswers F (.retrievePostDetails userId postId)
        (own call events)).race .user) with
    | none => exact trivial
    | some user =>
      cases commentsValue : readValue F (decodeArray Comment.decode) ((callAnswers F
          (.retrievePostDetails userId postId) (own call events)).race .comments) with
      | none => exact trivial
      | some comments =>
        obtain ⟨now,node,⟨c,represents,backed⟩,place,read⟩ :=
          readTrusted lawful stores trusted honest ran found (by rw [args]; exact userValue)
        obtain ⟨later,other,⟨d,representsLater,backedLater⟩,placeLater,readLater⟩ :=
          readTrusted lawful stores trusted honest ran found (by rw [args]; exact commentsValue)
        rw [args] at place placeLater
        cases place
        cases placeLater
        rw [heldValue lawful respectsUser (represents.user userId)] at read
        rw [heldValue lawful (respectsArray respectsComment) (representsLater.comments postId)] at readLater
        exact Or.inr ⟨backed.user userId user read,backedLater.comments postId comments readLater⟩

theorem vouchedMore {session longer : List (Nat × NetworkSuccess)} {xs ys : List NetworkSuccess}
    (lasting : session ⊆ longer) (more : xs ⊆ ys) {call : Nat} {args : CallArgs} {r : CallResponse}
    (vouched : Vouched session xs call args r) : Vouched longer ys call args r := by
  cases args with
  | retrieveAllPosts =>
    cases r with
    | details _ => exact vouched
    | posts response =>
      cases response with
      | failure _ => trivial
      | success list => exact more vouched
  | retrievePostDetails userId postId =>
    cases r with
    | posts _ => exact vouched
    | details response =>
      cases response with
      | failure _ => trivial
      | success d =>
        rcases vouched with whole | ⟨⟨sameUser,u,p,list,user⟩,first,v,q,other,comments⟩
        · exact Or.inl (lasting whole)
        · exact Or.inr ⟨⟨sameUser,u,p,list,more user⟩,first,v,q,other,more comments⟩

theorem honestPrefix {F : Foundation Data} {store : Store σ} {db : σ} {xs ys : List (ProviderEvent Data)}
    (honest : Honest F store db (xs ++ ys)) : Honest F store db xs := by
  refine List.forall_iff_forall_mem.mpr fun p member => List.forall_iff_forall_mem.mp honest p ?_
  exact (observePrefix (dataProvider F) (Shown store db) xs ys).subset member

theorem trustedAlive {F : Foundation Data} (lawful : F.Lawful) {store : Store σ} (stores : store.Lawful)
    {earlier : List NetworkSuccess} {db : σ} (trusted : Trusted store earlier db)
    {events : List (ProviderEvent Data)} (honest : Honest F store db events) {w : Provider}
    (ran : Pool.run (dataProvider F) events = some w) : w.trap ≠ some .invalidTopLevelObject := by
  intro trapped
  obtain ⟨xs,call,e,old,i,rfl,ranOld,alive,found,stepped,⟨other,_⟩ | ⟨_,name,r,rfl,snapshot,object,rfl,value,
    scalar⟩⟩ := providerTrap ran trapped
  · cases other
  · obtain ⟨r,reading,_⟩ := readEnabled stepped
    have node := (callReads (ownAgrees ranOld alive found) reading).1
    obtain ⟨now,⟨c,represents,_⟩,rfl⟩ := shownTrusted lawful stores trusted honest ranOld found reading
    cases stored : store.value r.node now with
    | none =>
      rw [stored] at value
      cases value
    | some v =>
      have container := containersOnly represents node stored
      have present : v.isNull = false := by cases v <;> first | rfl | cases container
      simp only [stored,DataSnapshot.of,snapshotResponse,DataSnapshot.exists,present,Bool.not_false,if_true,
        ResponseType.success.injEq,DatabaseResponse.mk.injEq] at value
      rw [← value,container] at scalar
      cases scalar

theorem sessionsVouch {F : Foundation Data} (lawful : F.Lawful) {store : Store σ} (stores : store.Lawful)
    {earlier : List NetworkSuccess} {db : σ} (sessions : Sessions F store earlier db)
    {events : List (ProviderEvent Data)} {w : Provider} (ran : Pool.run (dataProvider F) events = some w)
    (honest : Honest F store db events) :
    w.trap ≠ some .invalidTopLevelObject ∧
    ∀ (call : Nat) i, w.instances[call]? = some i → ∀ r ∈ i.delivered,
      Vouched (deliveries F events) (earlier ++ networkSuccesses F events) call i.args r := by
  have trusted := sessionsTrusted lawful stores sessions
  refine ⟨trustedAlive lawful stores trusted honest ran,?_⟩
  intro call i found r member
  cases reading : i.state.reading with
  | false =>
    obtain ⟨n,success,rfl⟩ := onlineSource ran found reading member
    obtain ⟨j,foundJ,_,args⟩ := deliveryHeld ran success
    cases Option.some.inj (found.symm.trans foundJ)
    rw [args]
    exact onlineVouched success (List.mem_append_right _ (List.mem_map_of_mem success))
  | true =>
    cases trapped : w.trap with
    | none => exact offlineVouched lawful stores trusted honest ran trapped found reading member
    | some t =>
      -- the block that trapped changed no call, so the state before it tells
      obtain ⟨before,e,old,rfl,ranOld,alive,rfl,_⟩ := poolTrap ran trapped
      have vouched := offlineVouched lawful stores trusted (honestPrefix honest) ranOld alive found reading
        member
      exact vouchedMore (deliveriesPrefix F before [e]).subset (List.append_subset.mpr
        ⟨List.subset_append_left _ _,
          List.Subset.trans (successesPrefix F before [e]) (List.subset_append_right _ _)⟩) vouched

/- A session that dies of an empty users array, and an offline one after it. -/
def crashedSession : List (ProviderEvent Json) :=
  [.spawn (.retrievePostDetails 1 2),
    .step 0 (.details (.load (.userReply ⟨some (encodeArray User.encode [sampleUser 1]),none⟩))),
    .step 0 (.details (.load (.commentsReply ⟨some (encodeArray Comment.encode twoComments),none⟩))),
    .step 0 (.details (.load .notify)),.spawn (.retrievePostDetails 3 4),
    .step 1 (.details (.load (.userReply ⟨some (.array []),none⟩)))]

def crashedDatabase : Node := replay keyTree keyTree.empty
  [⟨["users","1"],(sampleUser 1).encode⟩,⟨["comments","2"],encodeArray Comment.encode twoComments⟩]

def offlineSession : List (ProviderEvent Json) :=
  [.spawn (.retrievePostDetails 1 2),.step 0 (.details (.load (.userReply ⟨none,none⟩))),
    .step 0 (.details (.load (.commentsReply ⟨none,none⟩))),.step 0 (.details (.load .notify)),
    .step 0 (.details (.read (.user (.snapshot (.of (some (sampleUser 1).encode)))))),
    .step 0 (.details (.read (.comments (.snapshot (.of (some (encodeArray Comment.encode twoComments))))))),
    .step 0 (.details (.read .notify))]

theorem relaunchVouches : ∃ w v i, Pool.run (dataProvider plainFoundation) crashedSession = some w ∧
    w.trap = some .firstUserIsNil ∧ Pool.run (dataProvider plainFoundation) offlineSession = some v ∧
    v.instances[0]? = some i ∧ i.delivered = [.details (.success ⟨sampleUser 1,twoComments⟩)] ∧
    deliveries plainFoundation offlineSession = [] ∧ v.trap ≠ some .invalidTopLevelObject ∧
    Vouched (deliveries plainFoundation offlineSession) ([] ++ networkSuccesses plainFoundation crashedSession ++
      networkSuccesses plainFoundation offlineSession) 0 i.args
      (.details (.success ⟨sampleUser 1,twoComments⟩)) := by
  have crashed : Pool.run (dataProvider plainFoundation) crashedSession = some _ := rfl
  have written : Sessions plainFoundation keyTree _ crashedDatabase :=
    .ended .installed crashed (List.Sublist.refl _)
  have user : DataSnapshot.of (some (sampleUser 1).encode) =
      .of (keyTree.value ["users","1"] crashedDatabase) := rfl
  have comments : DataSnapshot.of (some (encodeArray Comment.encode twoComments)) =
      .of (keyTree.value ["comments","2"] crashedDatabase) := rfl
  have honest : Honest plainFoundation keyTree crashedDatabase offlineSession := by
    unfold Honest
    exact ⟨trivial,trivial,trivial,trivial,⟨[],List.nil_sublist _,user⟩,⟨[],List.nil_sublist _,comments⟩,trivial⟩
  have ran : Pool.run (dataProvider plainFoundation) offlineSession = some _ := rfl
  obtain ⟨survived,vouched⟩ := sessionsVouch plainLawful keyTreeLawful written ran honest
  exact ⟨_,_,_,crashed,rfl,ran,rfl,rfl,rfl,survived,vouched 0 _ rfl _ List.mem_cons_self⟩

end BabylonHealthDemo
