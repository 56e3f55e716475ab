import BabylonHealthDemo.Database

/-! The variables that loadPostDetails and readPostDetails both capture, the two
closures that fill them and leave the dispatch group, and the notify block that
joins them. JoinAgrees ties them to the two responses received so far: the
values alone decide the answer, the order of the closures only decides which of
two errors is kept. -/
namespace BabylonHealthDemo
open JsonTree PathStore Callbacks

structure PostDetails where
  user : User
  comments : List Comment
  deriving DecidableEq, Repr

structure PostDetailsVars where
  user : Option User
  comments : Option (List Comment)
  responseError : Option SwiftError
  dispatchGroup : DispatchGroup
  deriving DecidableEq, Repr

namespace PostDetailsVars

def new : PostDetailsVars := ⟨none,none,none,.new⟩

def enter (v : PostDetailsVars) : PostDetailsVars := {v with dispatchGroup := v.dispatchGroup.enter}

def leave (v : PostDetailsVars) : Except Trap PostDetailsVars :=
  match v.dispatchGroup.leave with
  | none => .error .unbalancedLeave
  | some group => .ok {v with dispatchGroup := group}

def notify (v : PostDetailsVars) : PostDetailsVars := {v with dispatchGroup := v.dispatchGroup.notify}

def userCompletion (v : PostDetailsVars) (response : ResponseType User) :
    Except Trap (Out Action PostDetailsVars (ResponseType PostDetails)) := do
  let v := match response with
    | .success userResponse => {v with user := some userResponse}
    | .failure error => {v with responseError := some error}
  let v ← v.leave
  .ok (v,[])

def commentsCompletion (v : PostDetailsVars) (response : ResponseType (List Comment)) :
    Except Trap (Out Action PostDetailsVars (ResponseType PostDetails)) := do
  let v := match response with
    | .success commentsResponse => {v with comments := some commentsResponse}
    | .failure error => {v with responseError := some error}
  let v ← v.leave
  .ok (v,[])

def notifyBlock (v : PostDetailsVars) : Except Trap (List (Effect Action (ResponseType PostDetails))) :=
  match v.user,v.comments with
  | some user,some comments => .ok [.complete (.success ⟨user,comments⟩)]
  | _,_ => match v.responseError with
    | none => .error .responseErrorIsNil
    | some error => .ok [.complete (.failure error)]

end PostDetailsVars

theorem userSilent (v : PostDetailsVars) (response : ResponseType User) (next : PostDetailsVars)
    (out : List (Effect Action (ResponseType PostDetails)))
    (ran : v.userCompletion response = .ok (next,out)) : out = [] := by
  obtain ⟨_,_,same⟩ := okBind ran
  cases same
  rfl

theorem commentsSilent (v : PostDetailsVars) (response : ResponseType (List Comment)) (next : PostDetailsVars)
    (out : List (Effect Action (ResponseType PostDetails)))
    (ran : v.commentsCompletion response = .ok (next,out)) : out = [] := by
  obtain ⟨_,_,same⟩ := okBind ran
  cases same
  rfl

def both : Option User → Option (List Comment) → Option PostDetails
  | some user,some comments => some ⟨user,comments⟩
  | _,_ => none

theorem bothSome {user : Option User} {comments : Option (List Comment)} {d : PostDetails} :
    both user comments = some d ↔ user = some d.user ∧ comments = some d.comments := by
  obtain ⟨u,list⟩ := d
  cases user <;> cases comments <;> simp [both]

theorem notifyRan {v : PostDetailsVars} {out : List (Effect Action (ResponseType PostDetails))}
    (ran : v.notifyBlock = .ok out) :
    ∃ response, out = [.complete response] ∧ response.value = both v.user v.comments := by
  unfold PostDetailsVars.notifyBlock at ran
  split at ran
  · rename_i users lists
    cases ran
    exact ⟨_,rfl,by rw [users,lists]; rfl⟩
  · rename_i missing
    split at ran <;> cases ran
    refine ⟨_,rfl,?_⟩
    cases users : v.user with
    | none => rfl
    | some user =>
      cases lists : v.comments with
      | none => rfl
      | some comments => exact absurd lists (missing user comments users)

def received (response : Option (ResponseType α)) : Option α := response.bind ResponseType.value

def failed (response : Option (ResponseType α)) : Bool := response.isSome && (received response).isNone

def pendingOf (response : Option α) : Nat := if response.isNone then 1 else 0

structure JoinAgrees (user : Option (ResponseType User)) (comments : Option (ResponseType (List Comment)))
    (ran : Bool) (v : PostDetailsVars) : Prop where
  users : v.user = received user
  lists : v.comments = received comments
  error : failed user = true ∨ failed comments = true → v.responseError ≠ none
  group : Awaits (pendingOf user + pendingOf comments) ran v.dispatchGroup

theorem leaveSource {v : PostDetailsVars} {pending : Nat} {ran : Bool}
    (awaits : Awaits (pending+1) ran v.dispatchGroup) :
    ∃ group, v.leave = .ok {v with dispatchGroup := group} ∧ Awaits pending false group := by
  obtain ⟨group,left,next⟩ := awaitsLeave awaits
  exact ⟨group,by simp [PostDetailsVars.leave,left],next⟩

theorem joinUser {comments : Option (ResponseType (List Comment))} {ran : Bool} {v : PostDetailsVars}
    (agrees : JoinAgrees none comments ran v) (response : ResponseType User) :
    ∃ next, v.userCompletion response = .ok (next,[]) ∧ JoinAgrees (some response) comments false next := by
  have pending : Awaits (pendingOf comments + 1) ran v.dispatchGroup := by
    simpa [pendingOf,Nat.add_comm] using agrees.group
  cases response with
  | success user =>
    obtain ⟨group,left,awaits⟩ := leaveSource (v := {v with user := some user}) pending
    refine ⟨{v with user := some user,dispatchGroup := group},
      by simp only [PostDetailsVars.userCompletion,left,bind,Except.bind],rfl,agrees.lists,?_,?_⟩
    · intro error
      exact agrees.error (Or.inr (by simpa [failed,received] using error))
    · simpa [pendingOf] using awaits
  | failure error =>
    obtain ⟨group,left,awaits⟩ := leaveSource (v := {v with responseError := some error}) pending
    refine ⟨{v with responseError := some error,dispatchGroup := group},
      by simp only [PostDetailsVars.userCompletion,left,bind,Except.bind],?_,agrees.lists,?_,?_⟩
    · simpa [received] using agrees.users
    · simp
    · simpa [pendingOf] using awaits

theorem joinComments {user : Option (ResponseType User)} {ran : Bool} {v : PostDetailsVars}
    (agrees : JoinAgrees user none ran v) (response : ResponseType (List Comment)) :
    ∃ next, v.commentsCompletion response = .ok (next,[]) ∧ JoinAgrees user (some response) false next := by
  have pending : Awaits (pendingOf user + 1) ran v.dispatchGroup := by
    simpa [pendingOf] using agrees.group
  cases response with
  | success comments =>
    obtain ⟨group,left,awaits⟩ := leaveSource (v := {v with comments := some comments}) pending
    refine ⟨{v with comments := some comments,dispatchGroup := group},
      by simp only [PostDetailsVars.commentsCompletion,left,bind,Except.bind],agrees.users,rfl,?_,?_⟩
    · intro error
      exact agrees.error (Or.inl (by simpa [failed,received] using error))
    · simpa [pendingOf] using awaits
  | failure error =>
    obtain ⟨group,left,awaits⟩ := leaveSource (v := {v with responseError := some error}) pending
    refine ⟨{v with responseError := some error,dispatchGroup := group},
      by simp only [PostDetailsVars.commentsCompletion,left,bind,Except.bind],agrees.users,?_,?_,?_⟩
    · simpa [received] using agrees.lists
    · simp
    · simpa [pendingOf] using awaits

/- Both closures have run when the notify block does, so it finds two values or an error. -/
theorem joinNotify {user : Option (ResponseType User)} {comments : Option (ResponseType (List Comment))}
    {ran : Bool} {v : PostDetailsVars} {group : DispatchGroup}
    (agrees : JoinAgrees user comments ran v) (run : v.dispatchGroup.run = some group) :
    user.isSome = true ∧ comments.isSome = true ∧ ran = false ∧
    JoinAgrees user comments true {v with dispatchGroup := group} ∧
    ∃ response, v.notifyBlock = .ok [.complete response] ∧
      response.value = both (received user) (received comments) := by
  obtain ⟨zero,early,awaits⟩ := awaitsRun agrees.group run
  obtain ⟨noUser,noComments⟩ := Nat.add_eq_zero_iff.mp zero
  have userIs : user.isSome = true := by
    cases user with
    | none => simp [pendingOf] at noUser
    | some _ => rfl
  have commentsIs : comments.isSome = true := by
    cases comments with
    | none => simp [pendingOf] at noComments
    | some _ => rfl
  refine ⟨userIs,commentsIs,early,⟨agrees.users,agrees.lists,agrees.error,by rw [zero]; exact awaits⟩,?_⟩
  unfold PostDetailsVars.notifyBlock
  rw [agrees.users,agrees.lists]
  cases hu : received user with
  | none =>
    have error := agrees.error (Or.inl (by simp [failed,userIs,hu]))
    cases he : v.responseError with
    | none => exact absurd he error
    | some e => exact ⟨.failure e,rfl,rfl⟩
  | some u =>
    cases hc : received comments with
    | none =>
      have error := agrees.error (Or.inr (by simp [failed,commentsIs,hc]))
      cases he : v.responseError with
      | none => exact absurd he error
      | some e => exact ⟨.failure e,rfl,rfl⟩
    | some c => exact ⟨.success ⟨u,c⟩,rfl,rfl⟩

theorem joinRan {user : Option (ResponseType User)} {comments : Option (ResponseType (List Comment))}
    {v : PostDetailsVars} (agrees : JoinAgrees user comments true v) :
    user.isSome = true ∧ comments.isSome = true := by
  cases user with
  | none =>
    have early := (agrees.group.2.1 (Nat.add_pos_left Nat.one_pos _)).1
    cases early
  | some u =>
    cases comments with
    | none =>
      have early := (agrees.group.2.1 (Nat.add_pos_right _ Nat.one_pos)).1
      cases early
    | some c => exact ⟨rfl,rfl⟩

theorem joinSettled {user : Option (ResponseType User)} {comments : Option (ResponseType (List Comment))}
    {ran : Bool} {v : PostDetailsVars} (agrees : JoinAgrees user comments ran v)
    (users : user.isNone = false) (lists : comments.isNone = false)
    (idle : v.dispatchGroup.run = none) : ran = true := by
  rcases awaitsIdle agrees.group idle with pending | ran
  · simp [pendingOf,users,lists] at pending
  · exact ran

/- The group was entered twice; responses that came synchronously left it before
the notify block was registered. -/
theorem joinRegistered {user : Option (ResponseType User)} {comments : Option (ResponseType (List Comment))}
    {v : PostDetailsVars} (users : v.user = received user) (lists : v.comments = received comments)
    (error : failed user = true ∨ failed comments = true → v.responseError ≠ none)
    (count : v.dispatchGroup.count = (pendingOf user + pendingOf comments : Nat)) :
    JoinAgrees user comments false v.notify :=
  ⟨users,lists,error,awaitsNotify _ _ count⟩

structure PostDetailsVars.Sound (v : PostDetailsVars) : Prop where
  balanced : 0 ≤ v.dispatchGroup.count
  unwrap : v.dispatchGroup.notifyBlock = .submitted → v.user = none ∨ v.comments = none →
    v.responseError ≠ none

theorem joinSound {user : Option (ResponseType User)} {comments : Option (ResponseType (List Comment))}
    {ran : Bool} {v : PostDetailsVars} (agrees : JoinAgrees user comments ran v) : v.Sound := by
  refine ⟨by rw [agrees.group.1]; exact Int.natCast_nonneg _,?_⟩
  intro submitted absent
  have run : v.dispatchGroup.run = some {v.dispatchGroup with notifyBlock := .finished} := by
    simp [DispatchGroup.run,submitted]
  obtain ⟨users,lists,_⟩ := joinNotify agrees run
  apply agrees.error
  rcases absent with noUser | noComments
  · left
    rw [failed,users,← agrees.users,noUser]
    rfl
  · right
    rw [failed,lists,← agrees.lists,noComments]
    rfl

end BabylonHealthDemo
