import BabylonHealthDemo.Deliveries

/-! How many blocks a retrieval can run, and what it needs to complete. Each block
uses up one reply, one snapshot, one timeout or one notify, so a call runs at most
three of them for the posts and eight for the details. It completes by its own
blocks: without a reply that carries data, without a snapshot, and while every
other call stands still. -/
namespace BabylonHealthDemo
open JsonTree PathStore Callbacks

def Read.blocks (r : Read) : Nat := r.observing.toNat + r.timerPending.toNat

def PostDetailsVars.blocks (v : PostDetailsVars) : Nat :=
  if v.dispatchGroup.notifyBlock = .finished then 0 else 1

def ReadPostDetails.blocks (s : ReadPostDetails) : Nat :=
  s.userRead.blocks + s.commentsRead.blocks + s.vars.blocks

def LoadPostDetails.blocks (s : LoadPostDetails) : Nat :=
  s.userTask.outstanding.toNat + s.commentsTask.outstanding.toNat + 6*s.vars.blocks

def RetrieveAllPosts.blocks (s : RetrieveAllPosts) : Nat :=
  3*s.task.outstanding.toNat + (s.read.map Read.blocks).getD 0

def RetrievePostDetails.blocks (s : RetrievePostDetails) : Nat :=
  s.load.blocks + (s.read.map ReadPostDetails.blocks).getD 0

def CallState.blocks : CallState → Nat
  | .posts s => s.blocks
  | .details s => s.blocks

def CallArgs.blocks : CallArgs → Nat
  | .retrieveAllPosts => 3
  | .retrievePostDetails _ _ => 8

theorem varsBlocks (v : PostDetailsVars) : v.blocks ≤ 1 := by
  unfold PostDetailsVars.blocks
  split <;> omega

theorem leaveBlocks {v next : PostDetailsVars} (left : v.leave = .ok next) : next.blocks ≤ v.blocks := by
  unfold PostDetailsVars.leave DispatchGroup.leave at left
  unfold PostDetailsVars.blocks
  split at left <;> cases left
  rename_i group found
  split at found <;> try contradiction
  split at found <;> cases found
  · rename_i last
    simp [last.2]
  · exact Nat.le_refl _

theorem userBlocks {v next : PostDetailsVars} {response : ResponseType User}
    {out : List (Effect Action (ResponseType PostDetails))}
    (ran : v.userCompletion response = .ok (next,out)) : next.blocks ≤ v.blocks ∧ completions out = [] := by
  obtain ⟨_,left,same⟩ := okBind ran
  cases same
  refine ⟨(leaveBlocks left).trans (Nat.le_of_eq ?_),rfl⟩
  cases response <;> rfl

theorem commentsBlocks {v next : PostDetailsVars} {response : ResponseType (List Comment)}
    {out : List (Effect Action (ResponseType PostDetails))}
    (ran : v.commentsCompletion response = .ok (next,out)) : next.blocks ≤ v.blocks ∧ completions out = [] := by
  obtain ⟨_,left,same⟩ := okBind ran
  cases same
  refine ⟨(leaveBlocks left).trans (Nat.le_of_eq ?_),rfl⟩
  cases response <;> rfl

theorem handledBlocks {closure : PostDetailsVars → ρ → Except Trap (Out Action PostDetailsVars (ResponseType PostDetails))}
    (spends : ∀ v r next out, closure v r = .ok (next,out) → next.blocks ≤ v.blocks ∧ completions out = [])
    {v last : PostDetailsVars} {es : List (Effect Action ρ)} {out : List (Effect Action (ResponseType PostDetails))}
    (ran : handle closure v es = .ok (last,out)) : last.blocks ≤ v.blocks ∧ completions out = [] :=
  ⟨handleKeeps (fun next => next.blocks ≤ v.blocks)
      (fun _ _ _ _ held ran => (spends _ _ _ _ ran).1.trans held) (Nat.le_refl _) ran,
    handleQuiet (fun _ _ _ _ ran => (spends _ _ _ _ ran).2) ran⟩

theorem groupBlocks {v : PostDetailsVars} {group : DispatchGroup} (run : v.dispatchGroup.run = some group) :
    v.blocks = 1 ∧ ({v with dispatchGroup := group} : PostDetailsVars).blocks = 0 := by
  obtain ⟨submitted,rfl⟩ := runSource run
  simp [PostDetailsVars.blocks,submitted]

theorem taskBlocks {task next : DataTask} {reply : Reply Data}
    {completion : ResponseType (Payload Data) → Except Trap (ResponseType α)}
    {out : List (Effect Action (ResponseType α))}
    (ok : task.answer completion reply = some (.ok (next,out))) :
    task.outstanding.toNat = 1 ∧ next.outstanding.toNat = 0 := by
  obtain ⟨outstanding,block⟩ := taskReplySource ok
  cases response : completion (taskResponse reply) with
  | error t => rw [response] at block; cases block
  | ok r =>
    rw [response] at block
    cases block
    exact ⟨by rw [outstanding]; rfl,rfl⟩

theorem readBlocks {r next : Read} {e : ReadEvent}
    {out : List (Effect Action (ResponseType (DatabaseResponse Json)))}
    (ok : r.step e = some (next,out)) : next.blocks < r.blocks := by
  cases e with
  | snapshot s =>
    simp only [Read.step] at ok
    split at ok <;> try contradiction
    rename_i observing
    cases Option.some.inj ok
    simp [Read.blocks,observing]
  | timeout =>
    simp only [Read.step] at ok
    split at ok <;> try contradiction
    rename_i pending
    split at ok <;> cases Option.some.inj ok <;> simp [Read.blocks,pending]

theorem answerBlocks {F : Foundation Data} {decode : Json → Option α} {r next : Read} {e : ReadEvent}
    {out : List (Effect Action (ResponseType α))}
    (ok : r.answer F decode e = some (.ok (next,out))) : next.blocks < r.blocks := by
  simp only [Read.answer,bind,Option.bind_eq_some_iff] at ok
  obtain ⟨⟨read,inner⟩,stepped,last⟩ := ok
  obtain ⟨_,_,same⟩ := okBind (Option.some.inj last)
  cases same
  exact readBlocks stepped

theorem readDetailsBlocks {F : Foundation Data} {s next : ReadPostDetails} {e : ReadDetailsEvent}
    {out : List (Effect Action (ResponseType PostDetails))}
    (ok : s.step F e = some (.ok (next,out))) : next.blocks < s.blocks := by
  cases readDetailsRan ok with
  | user answered handled =>
    have less := answerBlocks answered
    have kept := (handledBlocks (fun _ _ _ _ => userBlocks) handled).1
    simp only [ReadPostDetails.blocks]
    omega
  | comments answered handled =>
    have less := answerBlocks answered
    have kept := (handledBlocks (fun _ _ _ _ => commentsBlocks) handled).1
    simp only [ReadPostDetails.blocks]
    omega
  | notify run _ =>
    obtain ⟨one,zero⟩ := groupBlocks run
    simp only [ReadPostDetails.blocks,one,zero]
    omega

theorem loadBlocks {F : Foundation Data} {s load : LoadPostDetails} {e : LoadEvent Data}
    {out : List (Effect Action (ResponseType PostDetails))} (ok : s.step F e = some (.ok (load,out))) :
    (completions out = [] ∧ load.blocks < s.blocks) ∨
      ((∃ response, out = [.complete response]) ∧ load.blocks + 6 = s.blocks) := by
  cases loadRan ok with
  | userReply answered handled =>
    obtain ⟨kept,quiet⟩ := handledBlocks (fun _ _ _ _ => userBlocks) handled
    obtain ⟨one,zero⟩ := taskBlocks answered
    refine Or.inl ⟨quiet,?_⟩
    simp only [LoadPostDetails.blocks,one,zero]
    omega
  | commentsReply answered handled =>
    obtain ⟨kept,quiet⟩ := handledBlocks (fun _ _ _ _ => commentsBlocks) handled
    obtain ⟨one,zero⟩ := taskBlocks answered
    refine Or.inl ⟨quiet,?_⟩
    simp only [LoadPostDetails.blocks,one,zero]
    omega
  | notify run notified =>
    obtain ⟨response,rfl,_⟩ := notifyRan notified
    obtain ⟨one,zero⟩ := groupBlocks run
    exact Or.inr ⟨⟨response,rfl⟩,by simp only [LoadPostDetails.blocks,one,zero]⟩

theorem postsBlocks {F : Foundation Data} {s next : RetrieveAllPosts} {e : PostsEvent Data}
    {out : List (Effect Action (ResponseType (List Post)))} (ok : s.step F e = some (.ok (next,out))) :
    next.blocks < s.blocks := by
  cases postsRan ok with
  | @reply reply _ _ _ _ answered handled =>
    obtain ⟨outstanding,block⟩ := taskReplySource answered
    cases block
    simp only [handle,bind,Except.bind] at handled
    cases response : loadPostsCompletion F (taskResponse reply) with
    | success list =>
      rw [response] at handled
      cases handled
      simp only [RetrieveAllPosts.blocks,outstanding]
      exact Nat.add_lt_add_right (show 3*false.toNat < 3*true.toNat by decide) _
    | failure error =>
      rw [response] at handled
      cases handled
      simp only [RetrieveAllPosts.blocks,outstanding]
      exact Nat.lt_add_right _ (show 2 < 3 by decide)
  | read reading answered _ =>
    have less := answerBlocks answered
    simp only [RetrieveAllPosts.blocks,reading,Option.map_some,Option.getD_some]
    omega

theorem detailsBlocks {F : Foundation Data} {s next : RetrievePostDetails} {e : DetailsEvent Data}
    {out : List (Effect Action (ResponseType PostDetails))} (ok : s.step F e = some (.ok (next,out))) :
    next.blocks < s.blocks := by
  cases detailsRan ok with
  | @load _ load _ _ _ stepped handled =>
    rcases loadBlocks stepped with ⟨quiet,less⟩ | ⟨⟨response,rfl⟩,less⟩
    · obtain ⟨rest,ran,_⟩ := handleSilent (RetrievePostDetails.networkCompletion F) {s with load := load} quiet
      rw [ran] at handled
      cases handled
      exact Nat.add_lt_add_right less _
    · simp only [handle,bind,Except.bind] at handled
      cases response with
      | success d =>
        cases handled
        exact Nat.add_lt_add_right (show load.blocks < s.load.blocks by omega) _
      | failure error =>
        cases handled
        have fresh : (readPostDetails s.userId s.postId).blocks = 5 := rfl
        simp only [RetrievePostDetails.blocks,Option.map_some,Option.getD_some,fresh]
        omega
  | read reading stepped _ =>
    have less := readDetailsBlocks stepped
    simp only [RetrievePostDetails.blocks,reading,Option.map_some,Option.getD_some]
    omega

theorem blockSpends {F : Foundation Data} {s next : CallState} {e : CallEvent Data}
    {out : List (Effect Action CallResponse)} (ok : (dataProvider F).step s e = some (.ok (next,out))) :
    next.blocks < s.blocks := by
  cases callRan ok with
  | posts stepped => exact postsBlocks stepped
  | details stepped => exact detailsBlocks stepped

theorem startBlocks {F : Foundation Data} {args : CallArgs} {s : CallState}
    {out : List (Effect Action CallResponse)} (ok : (dataProvider F).start args = .ok (s,out)) :
    s.blocks ≤ args.blocks := by
  cases args with
  | retrieveAllPosts =>
    obtain ⟨s,inner,started,rfl,_⟩ := tagSource ok
    rcases requestStarts F Constants.postsRoute none
      (fun response => .ok (loadPostsCompletion F response)) (fun _ => rfl)
      with ⟨_,task,outstanding,starts⟩ | ⟨_,task,idle,starts⟩
    · simp only [retrieveAllPosts,loadPosts,starts,bind,Except.bind,handle] at started
      cases started
      simp [CallState.blocks,RetrieveAllPosts.blocks,outstanding,CallArgs.blocks]
    · simp only [retrieveAllPosts,loadPosts,starts,bind,Except.bind,handle,
        RetrieveAllPosts.networkCompletion] at started
      cases started
      simp [CallState.blocks,RetrieveAllPosts.blocks,idle,CallArgs.blocks,readPosts,read,Read.blocks]
  | retrievePostDetails userId postId =>
    obtain ⟨s,inner,started,rfl,_⟩ := tagSource ok
    obtain ⟨load,effects,starts,silent,_⟩ := loadStarts F userId postId
    obtain ⟨rest,ran,_⟩ := handleSilent (RetrievePostDetails.networkCompletion F)
      ⟨userId,postId,load,none⟩ silent
    simp only [retrievePostDetails,starts,bind,Except.bind,ran] at started
    cases started
    have user := Bool.toNat_le load.userTask.outstanding
    have comments := Bool.toNat_le load.commentsTask.outstanding
    have vars := varsBlocks load.vars
    simp only [CallState.blocks,RetrievePostDetails.blocks,LoadPostDetails.blocks,CallArgs.blocks,
      Option.map_none,Option.getD_none]
    omega

theorem ownBlocks {F : Foundation Data} {args : CallArgs} {events : List (CallEvent Data)}
    {i : Instance CallArgs CallState CallResponse}
    (ran : (dataProvider F).exec args events = some (.ok i)) :
    events.length + i.state.blocks ≤ args.blocks := by
  refine (Machine.execInvariant (fun events i => events.length + i.state.blocks ≤ args.blocks) ?_ ?_ ran).1
  · intro i spawned
    obtain ⟨_,_,started,rfl⟩ := Machine.spawnOk spawned
    simpa using startBlocks started
  · intro events i e next bound _ advanced
    obtain ⟨s,out,stepped,rfl⟩ := Machine.advanceOk advanced
    have less := blockSpends stepped
    simp only [List.length_append,List.length_singleton]
    omega

/- No order of the queue makes a call complete twice, unbalances a group or
unwraps a missing error; a call with no block left has completed, and each
call runs out of blocks. -/
theorem everyRetrievalCompletesOnce (F : Foundation Data) {events : List (ProviderEvent Data)}
    {w : Provider} (ran : Pool.run (dataProvider F) events = some w) :
    (∀ i ∈ w.instances, i.delivered.length ≤ 1) ∧
    (∀ i ∈ w.instances, ∀ v ∈ i.state.joins, 0 ≤ v.dispatchGroup.count ∧
      (v.dispatchGroup.notifyBlock = .submitted → v.user = none ∨ v.comments = none →
        v.responseError ≠ none)) ∧
    w.trap ≠ some .responseErrorIsNil ∧ w.trap ≠ some .unbalancedLeave ∧
    (∀ i ∈ w.instances, Settled F i.state → i.delivered.length = 1) ∧
    (w.trap = none → ∀ (call : Nat) i, w.instances[call]? = some i →
      (own call events).length ≤ i.args.blocks) := by
  refine ⟨?_,?_,?_,?_,?_,?_⟩
  · intro i member
    obtain ⟨a,agrees⟩ := instanceAgrees ran member
    rcases callDelivered agrees with none | one
    · simp [none]
    · simp [one]
  · intro i member v joined
    obtain ⟨a,agrees⟩ := instanceAgrees ran member
    have sound := callSound agrees v joined
    exact ⟨sound.balanced,sound.unwrap⟩
  · intro trapped
    obtain ⟨_,_,_,_,_,_,_,_,_,_,⟨other,_⟩ | ⟨other,_⟩⟩ := providerTrap ran trapped <;> cases other
  · intro trapped
    obtain ⟨_,_,_,_,_,_,_,_,_,_,⟨other,_⟩ | ⟨other,_⟩⟩ := providerTrap ran trapped <;> cases other
  · intro i member settled
    obtain ⟨a,agrees⟩ := instanceAgrees ran member
    simp [callSettled agrees settled]
  · intro alive call i found
    have bound := ownBlocks (projection ran alive found)
    omega

/- Two overlapping calls without a network: one read never gets a snapshot, another
gets its snapshot after the timeout. -/
def offlineRun : List (ProviderEvent Json) :=
  [.spawn (.retrievePostDetails 1 2),.spawn .retrieveAllPosts,
    .step 0 (.details (.load (.commentsReply ⟨none,some (.external "offline")⟩))),
    .step 1 (.posts (.reply ⟨none,some (.external "offline")⟩)),
    .step 0 (.details (.load (.userReply ⟨none,none⟩))),.step 0 (.details (.load .notify)),
    .step 1 (.posts (.read .timeout)),
    .step 0 (.details (.read (.comments (.snapshot (.of none))))),
    .step 0 (.details (.read (.user .timeout))),.step 0 (.details (.read (.comments .timeout))),
    .step 1 (.posts (.read (.snapshot (.of none)))),.step 0 (.details (.read .notify))]

theorem offlineRunCompletesOnce : ∃ w, Pool.run (dataProvider plainFoundation) offlineRun = some w ∧
    (∀ i ∈ w.instances, i.delivered.length = 1) ∧ (∀ i ∈ w.instances, i.delivered.length ≤ 1) ∧
    w.trap ≠ some .responseErrorIsNil ∧ (own 0 offlineRun).length ≤ 8 ∧ (own 1 offlineRun).length ≤ 3 := by
  have ran : Pool.run (dataProvider plainFoundation) offlineRun = some _ := rfl
  obtain ⟨once,_,unwrapped,_,completes,bound⟩ := everyRetrievalCompletesOnce plainFoundation ran
  refine ⟨_,ran,?_,once,unwrapped,bound rfl 0 _ rfl,bound rfl 1 _ rfl⟩
  intro i member
  refine completes i member ?_
  rcases List.mem_cons.mp member with rfl | second
  · rintro (e | ((reply | reply | _) | ((snapshot | _) | (snapshot | _) | _))) quiet <;> first | rfl | cases quiet
  · cases List.mem_singleton.mp second
    rintro ((reply | (snapshot | _)) | e) _ <;> rfl

/- Blocks that need nobody: a reply without data, a timeout, a notify. -/
def Unaided : CallEvent Data → Prop
  | .posts (.reply reply) => reply = ⟨none,none⟩
  | .posts (.read e) => e = .timeout
  | .details (.load (.userReply reply)) => reply = ⟨none,none⟩
  | .details (.load (.commentsReply reply)) => reply = ⟨none,none⟩
  | .details (.load .notify) => True
  | .details (.read (.user e)) => e = .timeout
  | .details (.read (.comments e)) => e = .timeout
  | .details (.read .notify) => True

theorem replyIdle {task : DataTask} {completion : ResponseType (Payload Data) → Except Trap (ResponseType α)}
    {reply : Reply Data} (idle : task.answer completion reply = none) (other : Reply Data) :
    task.answer completion other = none := by
  have finished := taskReplyIdle idle
  cases task with
  | resumed request => cases finished
  | notCreated => rfl
  | completed => rfl

theorem loadStepNone {F : Foundation Data} {s : RetrievePostDetails} {e : LoadEvent Data} :
    s.step F (.load e) = none ↔ s.load.step F e = none := by
  cases found : s.load.step F e <;> simp [RetrievePostDetails.step,found]

theorem loadIdle {F : Foundation Data} {s : LoadPostDetails} (user : s.step F (.userReply ⟨none,none⟩) = none)
    (comments : s.step F (.commentsReply ⟨none,none⟩) = none) (notify : s.step F .notify = none)
    (e : LoadEvent Data) : s.step F e = none := by
  cases e with
  | notify => exact notify
  | userReply reply =>
    cases answered : s.userTask.answer (getPostUserCompletion F) ⟨none,none⟩ with
    | none => simp [LoadPostDetails.step,replyIdle answered reply]
    | some block => simp [LoadPostDetails.step,answered] at user
  | commentsReply reply =>
    cases answered : s.commentsTask.answer
        (fun response => .ok (getPostCommentsCompletion F response)) ⟨none,none⟩ with
    | none => simp [LoadPostDetails.step,replyIdle answered reply]
    | some block => simp [LoadPostDetails.step,answered] at comments

theorem callPending {F : Foundation Data} {args : CallArgs} {a : CallAnswers} {s : CallState}
    (agrees : CallAgrees F args a s []) :
    ∃ e block, Unaided e ∧ (dataProvider F).step s e = some block := by
  by_contra idle
  have none : ∀ e, Unaided e → (dataProvider F).step s e = .none := by
    intro e unaided
    refine Option.eq_none_iff_forall_ne_some.mpr fun block stepped => ?_
    exact idle ⟨e,block,unaided,stepped⟩
  generalize nothing : ([] : List CallResponse) = delivered at agrees
  cases agrees with
  | posts agrees =>
    have reply := Option.map_eq_none_iff.mp (none (.posts (.reply ⟨.none,.none⟩)) rfl)
    have timer := Option.map_eq_none_iff.mp (none (.posts (.read .timeout)) rfl)
    rw [postsSettled agrees reply timer] at nothing
    cases nothing
  | details agrees =>
    have user := Option.map_eq_none_iff.mp (none (.details (.load (.userReply ⟨.none,.none⟩))) rfl)
    have comments := Option.map_eq_none_iff.mp (none (.details (.load (.commentsReply ⟨.none,.none⟩))) rfl)
    have notify := Option.map_eq_none_iff.mp (none (.details (.load .notify)) trivial)
    have userTimer := Option.map_eq_none_iff.mp (none (.details (.read (.user .timeout))) rfl)
    have commentsTimer := Option.map_eq_none_iff.mp (none (.details (.read (.comments .timeout))) rfl)
    have readNotify := Option.map_eq_none_iff.mp (none (.details (.read .notify)) trivial)
    rw [detailsSettled agrees (fun e => loadStepNone.mpr (loadIdle (loadStepNone.mp user)
      (loadStepNone.mp comments) (loadStepNone.mp notify) e)) userTimer commentsTimer readNotify] at nothing
    cases nothing

theorem unaidedSafe {F : Foundation Data} {args : CallArgs} {a : CallAnswers} {s : CallState}
    {delivered : List CallResponse} (agrees : CallAgrees F args a s delivered) {e : CallEvent Data}
    (unaided : Unaided e) {block : Except Trap (Out Action CallState CallResponse)}
    (ok : (dataProvider F).step s e = some block) : ∃ next out, block = .ok (next,out) := by
  cases callStepped agrees ok with
  | ran _ _ _ => exact ⟨_,_,rfl⟩
  | trapped cause _ =>
    rcases cause with ⟨_,reply,rfl,answer⟩ | ⟨_,name,r,rfl,scalar⟩
    · cases unaided
      cases answer
    · have timeout : r = .timeout := by cases name <;> exact unaided
      obtain ⟨_,_,snapshot,_⟩ := scalar
      cases timeout.symm.trans snapshot

structure Alone (F : Foundation Data) (start : Provider) (call : Nat) (args : CallArgs) (w : Provider) : Prop where
  reached : ∃ events, Pool.run (dataProvider F) events = some w
  alive : w.trap = none
  kept : ∃ i, w.instances[call]? = some i ∧ i.args = args
  others : ∀ other, other ≠ call → w.instances[other]? = start.instances[other]?

def blocksLeft (call : Nat) (w : Provider) : Nat := (w.instances[call]?.map (fun i => i.state.blocks)).getD 0

theorem aloneProgress {F : Foundation Data} {start w : Provider} {call : Nat} {args : CallArgs}
    (alone : Alone F start call args w) (waiting : ¬ w.deliveredBy call ≠ []) :
    ∃ e next, (∃ b, Unaided b ∧ e = PoolEvent.step call b) ∧ w.step (dataProvider F) e = some next ∧
      Alone F start call args next ∧ blocksLeft call next < blocksLeft call w := by
  obtain ⟨⟨events,ran⟩,alive,⟨i,found,same⟩,others⟩ := alone
  have inside := (List.getElem?_eq_some_iff.mp found).1
  obtain ⟨a,agrees⟩ := instanceAgrees ran (List.mem_iff_getElem?.mpr ⟨call,found⟩)
  have undelivered : i.delivered = [] := by simpa [Pool.deliveredBy,found] using waiting
  obtain ⟨b,block,unaided,pending⟩ := callPending (undelivered ▸ agrees)
  obtain ⟨state,out,rfl⟩ := unaidedSafe agrees unaided pending
  have stepped : w.step (dataProvider F) (.step call b) = some
      ⟨w.instances.set call ⟨i.args,state,i.delivered ++ completions out⟩,w.log ++ actions out,none⟩ :=
    poolEnabled alive found pending
  refine ⟨_,_,⟨b,unaided,rfl⟩,stepped,⟨⟨events ++ [.step call b],?_⟩,rfl,⟨_,List.getElem?_set_self inside,same⟩,?_⟩,?_⟩
  · rw [runSnoc,ran]
    exact stepped
  · intro other different
    rw [← others other different]
    exact List.getElem?_set_ne (fun same => different same.symm)
  · have less := blockSpends pending
    simpa [blocksLeft,found,List.getElem?_set_self inside] using less

theorem retrievalsCompleteAlone (F : Foundation Data) {events : List (ProviderEvent Data)} {w : Provider}
    (ran : Pool.run (dataProvider F) events = some w) (alive : w.trap = none) {call : Nat}
    {i : Instance CallArgs CallState CallResponse} (found : w.instances[call]? = some i) :
    (own call events).length ≤ i.args.blocks ∧
    ∃ more v j, (∀ e ∈ more, ∃ b, Unaided b ∧ e = .step call b) ∧
      (own call events).length + more.length ≤ i.args.blocks ∧
      Pool.run (dataProvider F) (events ++ more) = some v ∧ v.trap = none ∧ v.instances[call]? = some j ∧
      j.delivered = [sequentialSpec F i.args (own call (events ++ more))] ∧
      ∀ other, other ≠ call → v.instances[other]? = w.instances[other]? := by
  have bound := ownBlocks (projection ran alive found)
  refine ⟨by omega,?_⟩
  obtain ⟨more,v,only,short,continued,alone,done⟩ := Steps.drains (Alone F w call i.args)
    (fun v => v.deliveredBy call ≠ []) (fun e => ∃ b, Unaided b ∧ e = PoolEvent.step call b) (blocksLeft call)
    (fun _ alone waiting => aloneProgress alone waiting)
    ⟨⟨events,ran⟩,alive,⟨i,found,rfl⟩,fun _ _ => rfl⟩
  have left : blocksLeft call w = i.state.blocks := by simp [blocksLeft,found]
  have ranMore : Pool.run (dataProvider F) (events ++ more) = some v := (poolContinues ran).trans continued
  obtain ⟨j,foundJ,same⟩ := alone.kept
  refine ⟨more,v,j,only,by omega,ranMore,alone.alive,foundJ,?_,alone.others⟩
  have given : j.delivered ≠ [] := by simpa [Pool.deliveredBy,foundJ] using done
  rw [← same]
  exact (ownDelivered ranMore alone.alive foundJ).resolve_left given

theorem startedCompletesAlone : ∃ w more v j,
    Pool.run (dataProvider plainFoundation) (offlineRun.take 2) = some w ∧
    Pool.run (dataProvider plainFoundation) (offlineRun.take 2 ++ more) = some v ∧ more.length ≤ 3 ∧
    v.instances[1]? = some j ∧ j.delivered.length = 1 ∧ v.instances[0]? = w.instances[0]? := by
  have ran : Pool.run (dataProvider plainFoundation) (offlineRun.take 2) = some _ := rfl
  obtain ⟨_,more,v,j,_,short,later,_,found,one,others⟩ :=
    retrievalsCompleteAlone plainFoundation ran rfl (show (Pool.instances _)[1]? = some _ from rfl)
  exact ⟨_,more,v,j,ran,later,(Nat.zero_add more.length).symm.trans_le short,found,by rw [one]; rfl,
    others 0 (by decide)⟩

end BabylonHealthDemo
