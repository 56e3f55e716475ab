import BabylonHealthDemo.PostsScreen

/-! Two invariants of the screen. The table is filled once, by the first request, so
every selected row was a row of the list that is still there. And the HUD is up only
while some request is unanswered or a dismissal is still to come. -/
namespace BabylonHealthDemo
open Callbacks

theorem completionAsked {events : List ScreenEvent} {requests : List ScreenRequest} {all : List Handling}
    (accounted : Accounted events requests all) {h : Handling} (member : h ∈ all) :
    ∃ asked response, requests[h.request]? = some asked ∧ asked.answered = true ∧
      .response h.request response ∈ events ∧ asked.call.completion response = some h.completion := by
  obtain ⟨asked,response,found,answered,answer⟩ := accounted.known h member
  obtain ⟨again,completion,foundAgain,_,captured,there⟩ := accounted.issued _ _ answer
  cases found.symm.trans foundAgain
  have same : h = ⟨h.request,completion⟩ := List.inj_on_of_nodup_map accounted.once member there rfl
  refine ⟨asked,response,found,answered,answer,?_⟩
  rw [captured,same]

structure RowsAgree (i : ScreenRun) : Prop where
  first : ∃ asked, i.state.requests[0]? = some asked ∧ asked.call = .displayPosts
  tapped : ∀ k asked, k ≠ 0 → i.state.requests[k]? = some asked →
    ∃ post ∈ i.state.view.postsDataSource, asked.call = .didSelectPostCell post
  filled : i.state.view.postsDataSource ≠ [] → ∃ h ∈ i.delivered, h.request = 0

theorem tableFold {handled : List Handling} (others : ∀ h ∈ handled, ∀ response, h.completion ≠ .displayPosts response)
    (v : PostsView) :
    (handled.foldl (fun v h => h.completion.run v) v).postsDataSource = v.postsDataSource := by
  induction handled generalizing v with
  | nil => rfl
  | cons h rest ih =>
    rw [List.foldl_cons,ih (fun g member => others g (List.mem_cons_of_mem _ member))]
    cases completion : h.completion with
    | displayPosts response => exact absurd completion (others h List.mem_cons_self response)
    | didSelectPostCell post response => cases response <;> rfl

theorem displayFirst {events : List ScreenEvent} {i : ScreenRun} {all : List Handling} (rows : RowsAgree i)
    (accounted : Accounted events i.state.requests all) {h : Handling} (member : h ∈ all)
    {response : ResponseType (List Post)} (displays : h.completion = .displayPosts response) : h.request = 0 := by
  by_contra later
  obtain ⟨asked,answer,found,_,_,captured⟩ := completionAsked accounted member
  obtain ⟨post,_,call⟩ := rows.tapped _ _ later found
  rw [call,displays] at captured
  cases answer <;> cases captured

theorem rowsStarts : RowsAgree ⟨(),PostsScreen.viewDidLoad.1,[]⟩ where
  first := ⟨_,rfl,rfl⟩
  tapped k asked later found := by
    obtain ⟨k,rfl⟩ := Nat.exists_eq_succ_of_ne_zero later
    simp [PostsScreen.viewDidLoad,PostsScreen.displayPosts,PostsScreen.retrieve] at found
  filled := fun filled => absurd rfl filled

theorem rowsSelected {i : ScreenRun} (rows : RowsAgree i) {post : Post}
    (row : post ∈ i.state.view.postsDataSource) :
    RowsAgree ⟨i.args,(i.state.didSelectPostCell post).1,i.delivered ++ []⟩ := by
  obtain ⟨asked,found,call⟩ := rows.first
  refine ⟨⟨asked,?_,call⟩,?_,?_⟩
  · rw [← found]
    exact List.getElem?_append_left (List.getElem?_eq_some_iff.mp found).1
  · intro k other later foundOther
    simp only [PostsScreen.didSelectPostCell,PostsScreen.retrieve] at foundOther
    rcases Nat.lt_or_ge k i.state.requests.length with old | new
    · rw [List.getElem?_append_left old] at foundOther
      exact rows.tapped k other later foundOther
    · rw [List.getElem?_append_right new,List.getElem?_singleton] at foundOther
      split at foundOther <;> try contradiction
      cases foundOther
      exact ⟨post,row,rfl⟩
  · rw [List.append_nil]
    exact rows.filled

theorem rowsResponded {i : ScreenRun} (rows : RowsAgree i) {request : Nat} {asked : ScreenRequest}
    (found : i.state.requests[request]? = some asked) (hud : ProgressHUD Handling) :
    RowsAgree ⟨i.args,{i.state with
      requests := i.state.requests.set request {asked with answered := true},
      hud := hud},i.delivered ++ []⟩ := by
  have inside := (List.getElem?_eq_some_iff.mp found).1
  have kept : ∀ (k : Nat) other, (i.state.requests.set request {asked with answered := true})[k]? = some other →
      ∃ before, i.state.requests[k]? = some before ∧ before.call = other.call := by
    intro k other foundOther
    by_cases same : request = k
    · subst same
      rw [List.getElem?_set_self inside] at foundOther
      cases foundOther
      exact ⟨asked,found,rfl⟩
    · rw [List.getElem?_set_ne same] at foundOther
      exact ⟨other,foundOther,rfl⟩
  refine ⟨?_,?_,by rw [List.append_nil]; exact rows.filled⟩
  · obtain ⟨first,there,call⟩ := rows.first
    have bound : 0 < (i.state.requests.set request {asked with answered := true}).length := by
      rw [List.length_set]
      exact (List.getElem?_eq_some_iff.mp there).1
    obtain ⟨before,foundBefore,same⟩ := kept 0 _ (List.getElem?_eq_getElem bound)
    cases there.symm.trans foundBefore
    exact ⟨_,List.getElem?_eq_getElem bound,same.symm.trans call⟩
  · intro k other later foundOther
    obtain ⟨before,foundBefore,same⟩ := kept k other foundOther
    obtain ⟨post,row,call⟩ := rows.tapped k before later foundBefore
    exact ⟨post,row,same.symm.trans call⟩

/- Once it is filled the table stays: its only request has been handled. -/
theorem rowsStep {events : List ScreenEvent} {e : ScreenEvent} {before next : ScreenRun}
    (found : postsViewController.exec () events = some (.ok before)) (rows : RowsAgree before)
    (ran : postsViewController.exec () (events ++ [e]) = some (.ok next)) :
    RowsAgree next ∧ (before.state.view.postsDataSource ≠ [] →
      next.state.view.postsDataSource = before.state.view.postsDataSource) := by
  have advanced := ran
  rw [Machine.execSnoc,found] at advanced
  obtain ⟨s,out,stepped,rfl⟩ := Machine.advanceOk advanced
  cases e with
  | didSelectRow row =>
    obtain ⟨_,selected,same⟩ := Option.map_eq_some_iff.mp stepped
    obtain ⟨post,member,rfl⟩ := Option.map_eq_some_iff.mp selected
    cases same
    exact ⟨rowsSelected rows (List.mem_of_getElem? member),fun _ => rfl⟩
  | response request response =>
    have effect := screenStepped stepped
    generalize completions out = handled at effect
    cases effect with
    | responded asks _ _ => exact ⟨rowsResponded rows asks _,fun _ => rfl⟩
  | hud e =>
    obtain ⟨lost,agrees⟩ := screenRun ran
    have effect := screenStepped stepped
    have once := handledAtMostOnce ran
    generalize completions out = handled at effect agrees once
    cases effect with
    | @ran _ hud _ hudStepped =>
      have accounted : Accounted (events ++ [.hud e]) before.state.requests _ := agrees.accounted
      have display : ∀ h ∈ handled, ∀ response, h.completion = .displayPosts response → h.request = 0 :=
        fun h member response displays => displayFirst rows accounted (by simp [member]) displays
      have kept : before.state.view.postsDataSource ≠ [] →
          (handled.foldl (fun v h => h.completion.run v) before.state.view).postsDataSource =
            before.state.view.postsDataSource := by
        intro filled
        obtain ⟨first,there,zero⟩ := rows.filled filled
        refine tableFold (fun h member response displays => ?_) _
        simp only [List.map_append,List.nodup_append] at once
        exact once.2.2 _ (List.mem_map_of_mem there) _ (List.mem_map_of_mem member)
          (zero.trans (display h member response displays).symm)
      refine ⟨⟨rows.first,?_,?_⟩,kept⟩
      · intro k asked later foundAsked
        obtain ⟨post,row,call⟩ := rows.tapped k asked later foundAsked
        exact ⟨post,(kept (List.ne_nil_of_mem row)).symm ▸ row,call⟩
      · intro filled
        by_cases empty : before.state.view.postsDataSource = []
        · by_contra none
          refine filled ((tableFold (fun h member response displays => ?_) _).trans empty)
          exact none ⟨h,List.mem_append_right _ member,display h member response displays⟩
        · obtain ⟨h,there,zero⟩ := rows.filled empty
          exact ⟨h,List.mem_append_left _ there,zero⟩

theorem rowsRun {events : List ScreenEvent} {i : ScreenRun}
    (ran : postsViewController.exec () events = some (.ok i)) : RowsAgree i := by
  induction events using List.reverseRecOn generalizing i with
  | nil =>
    cases ran
    exact rowsStarts
  | append_singleton events e ih =>
    obtain ⟨before,found,_⟩ := Machine.execSnocSource ran
    exact (rowsStep found (ih found) ran).1

theorem tableKept {xs ys : List ScreenEvent} {i j : ScreenRun}
    (ran : postsViewController.exec () xs = some (.ok i))
    (later : postsViewController.exec () (xs ++ ys) = some (.ok j))
    (filled : i.state.view.postsDataSource ≠ []) :
    j.state.view.postsDataSource = i.state.view.postsDataSource := by
  induction ys using List.reverseRecOn generalizing j with
  | nil =>
    rw [List.append_nil,ran] at later
    cases later
    rfl
  | append_singleton ys e ih =>
    rw [← List.append_assoc] at later
    obtain ⟨before,found,_⟩ := Machine.execSnocSource later
    have same := ih found
    exact ((rowsStep found (rowsRun found) later).2 (same ▸ filled)).trans same

def PostsScreen.Awaited (s : PostsScreen) : Prop := ∃ asked ∈ s.requests, asked.answered = false

theorem hudStep {s next : PostsScreen} {e : ScreenEvent} {handled : List Handling}
    (down : ComesDown s.Awaited s.hud) (stepped : ScreenStepped s e next handled) :
    ComesDown next.Awaited next.hud := by
  cases stepped with
  | retrieved call => exact comesDownShow _ ⟨⟨call,false⟩,by simp [PostsScreen.retrieve],rfl⟩
  | responded _ _ _ => exact comesDownDismiss _ _ _ _
  | ran hudStepped => exact comesDownStep down hudStepped

theorem hudRun {events : List ScreenEvent} {i : ScreenRun}
    (ran : postsViewController.exec () events = some (.ok i)) :
    ComesDown i.state.Awaited i.state.hud := by
  refine (Machine.execInvariant (fun _ i => ComesDown i.state.Awaited i.state.hud) ?_ ?_ ran).1
  · intro i spawned
    cases spawned
    exact comesDownShow _ ⟨_,List.mem_cons_self,rfl⟩
  · intro _ i e next down _ advanced
    obtain ⟨_,_,stepped,rfl⟩ := Machine.advanceOk advanced
    exact hudStep down (screenStepped stepped)

end BabylonHealthDemo
