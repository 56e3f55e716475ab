import BabylonHealthDemo.NetworkRequests

/-! The queries against the service. The service keeps a table of users and one of
comments, and filters by the fields that a query names; a name that no row has
does not filter. The user query names a field of the rows. The comments query
names "postid", and the rows have "postId", so it selects every comment. -/
namespace BabylonHealthDemo
open JsonTree PathStore Callbacks

/- A scalar field as the text a query compares it with. -/
def queryText : Json → Option String
  | .number q => if q.den = 1 then some (toString q.num) else none
  | .string s => some s
  | _ => none

def selectRows (items : List (String × String)) (rows : List Json) : List Json :=
  rows.filter (fun row => items.all (fun item =>
    if rows.any (fun other => (other.field item.1).isSome) then
      decide ((row.field item.1).bind queryText = some item.2)
    else true))

structure JsonServer (F : Foundation Data) (users : List User) (comments : List Comment)
    (serve : URLRequest → Reply Data) : Prop where
  users : ∀ request, request.url.components.path = "/users" → ∃ data k, serve request = ⟨some data,none⟩ ∧
    F.parse data = some k ∧
    Same (.array (selectRows (request.url.components.queryItems.getD []) (users.map User.encode))) k
  comments : ∀ request, request.url.components.path = "/comments" → ∃ data k,
    serve request = ⟨some data,none⟩ ∧ F.parse data = some k ∧
    Same (.array (selectRows (request.url.components.queryItems.getD []) (comments.map Comment.encode))) k

theorem queryTextInt (n : Int64) : queryText (.int n) = some (toString n) := by
  simp only [queryText,Json.int,Rat.den_intCast,if_true,Rat.num_intCast]
  rfl

theorem selectField {encode : α → Json} {key : String} (id : α → Int64)
    (field : ∀ x, (encode x).field key = some (.int (id x))) (rows : List α) (wanted : Int64) :
    selectRows [(key,toString wanted)] (rows.map encode) =
      (rows.filter (fun x => id x = wanted)).map encode := by
  cases rows with
  | nil => rfl
  | cons first rest =>
    have named : ((first :: rest).map encode).any (fun other => (other.field key).isSome) = true := by
      simp [field]
    rw [selectRows,List.filter_map]
    congr 1
    refine List.filter_congr (fun x _ => ?_)
    simp only [Function.comp,List.all_cons,List.all_nil,Bool.and_true,named,if_true,field,Option.bind_some,
      queryTextInt,Option.some.injEq,decide_eq_decide]
    exact ⟨idString,congrArg toString⟩

theorem selectIgnored {encode : α → Json} {key : String} (absent : ∀ x, (encode x).field key = none)
    (rows : List α) (text : String) : selectRows [(key,text)] (rows.map encode) = rows.map encode := by
  simp [selectRows,absent]

theorem uniqueRow {users : List User} (distinct : (users.map User.userId).Nodup) {row : User}
    (present : row ∈ users) : users.filter (fun u => u.userId = row.userId) = [row] := by
  induction users with
  | nil => cases present
  | cons first rest ih =>
    obtain ⟨fresh,distinctRest⟩ := List.nodup_cons.mp distinct
    rcases List.mem_cons.mp present with rfl | inside
    · have others : rest.filter (fun u => u.userId = row.userId) = [] := by
        refine List.filter_eq_nil_iff.mpr (fun u member same => fresh ?_)
        exact (of_decide_eq_true same) ▸ List.mem_map_of_mem member
      rw [List.filter_cons_of_pos (by simp),others]
    · have away : first.userId ≠ row.userId :=
        fun same => fresh (same ▸ List.mem_map_of_mem inside)
      rw [List.filter_cons_of_neg (by simpa using away)]
      exact ih distinctRest inside

theorem servedUser {F : Foundation Data} {users : List User} {comments : List Comment}
    {serve : URLRequest → Reply Data} (server : JsonServer F users comments serve)
    (distinct : (users.map User.userId).Nodup) {row : User} (present : row ∈ users) {request : URLRequest}
    {out : List (Effect Action (ResponseType (Payload Data)))}
    (asked : performRequest F Constants.usersRoute (some (userParams row.userId)) = (.resumed request,out)) :
    body F (decodeArray User.decode) (serve request) = some [row] := by
  have built := performRequestURL asked
  obtain ⟨data,k,served,parsed,same⟩ := server.users request (by rw [built]; rfl)
  have selected : selectRows (request.url.components.queryItems.getD []) (users.map User.encode) =
      [row].map User.encode := by
    rw [built]
    exact (selectField User.userId (fun _ => rfl) users row.userId).trans
      (congrArg _ (uniqueRow distinct present))
  rw [selected] at same
  simp only [served,body,Option.bind_some,jsonDecode,parsed,← respectsArray respectsUser _ _ same]
  exact decodeEncodedArray decodeUser [row]

theorem servedComments {F : Foundation Data} {users : List User} {comments : List Comment}
    {serve : URLRequest → Reply Data} (server : JsonServer F users comments serve) {postId : Int64}
    {request : URLRequest} {out : List (Effect Action (ResponseType (Payload Data)))}
    (asked : performRequest F Constants.commentsRoute (some (commentsParams postId)) =
      (.resumed request,out)) :
    body F (decodeArray Comment.decode) (serve request) = some comments := by
  have built := performRequestURL asked
  obtain ⟨data,k,served,parsed,same⟩ := server.comments request (by rw [built]; rfl)
  have selected : selectRows (request.url.components.queryItems.getD []) (comments.map Comment.encode) =
      comments.map Comment.encode := by
    rw [built]
    exact selectIgnored (fun _ => rfl) comments _
  rw [selected] at same
  simp only [served,body,Option.bind_some,jsonDecode,parsed,← respectsArray respectsComment _ _ same]
  exact decodeEncodedArray decodeComment comments

theorem queriesSelect {F : Foundation Data} {users : List User} {comments : List Comment}
    {serve : URLRequest → Reply Data} (server : JsonServer F users comments serve)
    (distinct : (users.map User.userId).Nodup) {row : User} (present : row ∈ users) {postId : Int64}
    {events : List (LoadEvent Data)}
    {result : Except Trap (Instance (Int64 × Int64) LoadPostDetails (ResponseType PostDetails))}
    (ran : (postDetailsRequests F).exec (row.userId,postId) events = some result)
    (userServed : ∀ reply, .userReply reply ∈ events → ∃ request out,
      performRequest F Constants.usersRoute (some (userParams row.userId)) = (.resumed request,out) ∧
        reply = serve request)
    (commentsServed : ∀ reply, .commentsReply reply ∈ events → ∃ request out,
      performRequest F Constants.commentsRoute (some (commentsParams postId)) = (.resumed request,out) ∧
        reply = serve request)
    (userReplied : ∃ reply, .userReply reply ∈ events)
    (commentsReplied : ∃ reply, .commentsReply reply ∈ events) :
    ∃ i, result = .ok i ∧ ((∀ e, i.state.step F e = none) →
      (i.delivered = [.success ⟨row,comments.filter (fun c => c.postId = postId)⟩] ↔
        ∀ c ∈ comments, c.postId = postId)) := by
  have nonempty : ∀ reply, .userReply reply ∈ events → body F (decodeArray User.decode) reply ≠ some [] := by
    intro reply member
    obtain ⟨request,out,asked,rfl⟩ := userServed reply member
    rw [servedUser server distinct present asked]
    exact nofun
  obtain ⟨i,rfl⟩ := requestsAlive ran nonempty
  refine ⟨i,rfl,fun settled => ?_⟩
  obtain ⟨response,delivered,value⟩ := requestsSettled ran settled
  have everything : response = .success ⟨row,comments⟩ := by
    refine valueSome.mp ((value ⟨row,comments⟩).mpr ⟨?_,?_⟩)
    · obtain ⟨reply,member⟩ := userReplied
      obtain ⟨request,out,asked,rfl⟩ := userServed reply member
      exact ⟨_,member,by rw [servedUser server distinct present asked]; rfl⟩
    · obtain ⟨reply,member⟩ := commentsReplied
      obtain ⟨request,out,asked,rfl⟩ := commentsServed reply member
      exact ⟨_,member,servedComments server asked⟩
  rw [delivered,everything]
  constructor
  · intro same
    simp only [List.cons.injEq,ResponseType.success.injEq,PostDetails.mk.injEq,and_true,true_and] at same
    intro c member
    rw [same] at member
    exact of_decide_eq_true (List.mem_filter.mp member).2
  · intro onePost
    rw [List.filter_eq_self.mpr (fun c member => decide_eq_true (onePost c member))]

def plainServer (users : List User) (comments : List Comment) (request : URLRequest) : Reply Json :=
  let items := request.url.components.queryItems.getD []
  if request.url.components.path = "/users" then
    ⟨some (.array (selectRows items (users.map User.encode))),none⟩
  else if request.url.components.path = "/comments" then
    ⟨some (.array (selectRows items (comments.map Comment.encode))),none⟩
  else ⟨none,none⟩

theorem plainServerFilters (users : List User) (comments : List Comment) :
    JsonServer plainFoundation users comments (plainServer users comments) where
  users request path := ⟨_,_,by simp only [plainServer,path,if_true],rfl,sameRefl _⟩
  comments request path := ⟨_,_,by simp only [plainServer,path]; rfl,rfl,sameRefl _⟩

def getRequest (route : String) (queryParams : List (String × String)) : URLRequest :=
  .defaultRequest ⟨⟨"http",Constants.apiHost,route,some queryParams⟩⟩

def servedRun (comments : List Comment) : List (LoadEvent Json) :=
  [.commentsReply (plainServer [sampleUser 4,sampleUser 1] comments
      (getRequest Constants.commentsRoute (commentsParams 2))),
    .userReply (plainServer [sampleUser 4,sampleUser 1] comments
      (getRequest Constants.usersRoute (userParams 1))),.notify]

theorem onePostServed : ∃ i, (postDetailsRequests plainFoundation).exec (1,2)
      (servedRun [sampleComment 2 1,sampleComment 2 2]) = some (.ok i) ∧
    i.delivered = [.success ⟨sampleUser 1,[sampleComment 2 1,sampleComment 2 2]⟩] := by
  have ran : (postDetailsRequests plainFoundation).exec (1,2)
    (servedRun [sampleComment 2 1,sampleComment 2 2]) = some (.ok _) := rfl
  obtain ⟨i,same,selects⟩ :=
    queriesSelect (plainServerFilters [sampleUser 4,sampleUser 1] [sampleComment 2 1,sampleComment 2 2])
      (by decide) (show sampleUser 1 ∈ [sampleUser 4,sampleUser 1] by simp) ran
      (fun reply member => by
        simp [servedRun] at member
        exact ⟨_,_,rfl,member⟩)
      (fun reply member => by
        simp [servedRun] at member
        exact ⟨_,_,rfl,member⟩)
      ⟨_,by simp [servedRun]; rfl⟩ ⟨_,by simp [servedRun]; rfl⟩
  cases same
  refine ⟨_,ran,(selects ?_).mpr (by decide)⟩
  rintro (reply | reply | _) <;> rfl

theorem otherPostsServed : JsonServer plainFoundation [sampleUser 4,sampleUser 1]
      [sampleComment 3 1,sampleComment 2 2]
      (plainServer [sampleUser 4,sampleUser 1] [sampleComment 3 1,sampleComment 2 2]) ∧
    ∃ i, (postDetailsRequests plainFoundation).exec (1,2)
      (servedRun [sampleComment 3 1,sampleComment 2 2]) = some (.ok i) ∧
    i.delivered = [.success ⟨sampleUser 1,[sampleComment 3 1,sampleComment 2 2]⟩] ∧
    i.delivered ≠ [.success ⟨sampleUser 1,
      [sampleComment 3 1,sampleComment 2 2].filter (fun c => c.postId = 2)⟩] := by
  refine ⟨plainServerFilters _ _,_,rfl,rfl,?_⟩
  decide

end BabylonHealthDemo
