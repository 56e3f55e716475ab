import BabylonHealthDemo.Foundation

/-! Constants, the URL of a request and VanillaNetworkingService. A request whose
URL cannot be built completes at once and starts no task; every other request
turns the activity indicator on and leaves one data task, whose completion block
runs on the main queue once. -/
namespace BabylonHealthDemo
open JsonTree Callbacks

namespace Constants
def apiHost : String := "jsonplaceholder.typicode.com"
def postsRoute : String := "/posts"
def usersRoute : String := "/users"
def commentsRoute : String := "/comments"
def requestTimeoutInterval : Nat := 3
def postsIdKey : String := "id"
def commentsPostIdKey : String := "postid"
def firebasePostsPath : String := "posts"
def firebaseUsersPath : String := "users"
def firebaseCommentsPath : String := "comments"
end Constants

inductive HTTPScheme where
  | http
  | https

def HTTPScheme.rawValue : HTTPScheme → String
  | .http => "http"
  | .https => "https"

structure URLConfig where
  host : String
  scheme : String
  path : String
  queryComponents : Option (List (String × String))

def URLConfig.make (path : String) (queryComponents : Option (List (String × String)))
    (scheme : HTTPScheme := .http) (host : String := Constants.apiHost) : URLConfig :=
  ⟨host,scheme.rawValue,path,queryComponents⟩

def URLConfig.url (F : Foundation Data) (config : URLConfig) : Option URL :=
  URLComponents.url F ⟨config.scheme,config.host,config.path,
    config.queryComponents.map (fun components => components.map (fun item => (item.1,item.2)))⟩

inductive CachePolicy where
  | useProtocolCachePolicy
  | reloadIgnoringCacheData
  deriving DecidableEq, Repr

inductive HTTPMethod where
  | get

def HTTPMethod.rawValue : HTTPMethod → String
  | .get => "GET"

structure URLRequest where
  url : URL
  cachePolicy : CachePolicy
  timeoutInterval : Nat
  httpMethod : String
  deriving DecidableEq, Repr

def URLRequest.defaultRequest (url : URL) : URLRequest :=
  ⟨url,.reloadIgnoringCacheData,Constants.requestTimeoutInterval,HTTPMethod.get.rawValue⟩

structure Payload (Data : Type) where
  data : Data

def Payload.make (data : Option Data) : Option (Payload Data) := data.map Payload.mk

structure Reply (Data : Type) where
  data : Option Data
  error : Option SwiftError

inductive DataTask where
  | notCreated
  | resumed (request : URLRequest)
  | completed
  deriving DecidableEq, Repr

def performRequest (F : Foundation Data) (route : String)
    (queryParams : Option (List (String × String))) :
    DataTask × List (Effect Action (ResponseType (Payload Data))) :=
  match (URLConfig.make route queryParams).url F with
  | none => (.notCreated,[.complete (.failure (.networkingService .urlError))])
  | some url => (.resumed (URLRequest.defaultRequest url),[.act (.networkActivityIndicator true)])

def taskResponse (reply : Reply Data) : ResponseType (Payload Data) :=
  match reply.error with
  | some e => .failure e
  | none => match Payload.make reply.data with
    | none => .failure (.networkingService .noDataReceived)
    | some payload => .success payload

def DataTask.complete (task : DataTask) (reply : Reply Data) :
    Option (DataTask × List (Effect Action (ResponseType (Payload Data)))) :=
  match task with
  | .resumed _ => some (.completed,
      [.act (.networkActivityIndicator false),.complete (taskResponse reply)])
  | _ => none

def DataTask.outstanding : DataTask → Bool
  | .resumed _ => true
  | _ => false

theorem taskCompleteSource {task next : DataTask} {reply : Reply Data}
    {out : List (Effect Action (ResponseType (Payload Data)))}
    (ok : task.complete reply = some (next,out)) :
    task.outstanding = true ∧ next = .completed ∧
      out = [.act (.networkActivityIndicator false),.complete (taskResponse reply)] := by
  cases task with
  | resumed request => cases Option.some.inj ok; exact ⟨rfl,rfl,rfl⟩
  | _ => simp [DataTask.complete] at ok

theorem taskIdle {task : DataTask} {reply : Reply Data} (idle : task.complete reply = none) :
    task.outstanding = false := by
  cases task with
  | resumed request => cases idle
  | _ => rfl

theorem performRequestURL {F : Foundation Data} {route : String}
    {queryParams : Option (List (String × String))} {request : URLRequest}
    {out : List (Effect Action (ResponseType (Payload Data)))}
    (ok : performRequest F route queryParams = (.resumed request,out)) :
    request.url.components = ⟨"http",Constants.apiHost,route,queryParams⟩ := by
  unfold performRequest at ok
  split at ok
  · cases ok
  · rename_i url built
    cases ok
    simp only [URLConfig.url,URLComponents.url] at built
    split at built <;> try contradiction
    cases Option.some.inj built
    simp [URLRequest.defaultRequest,URLConfig.make,HTTPScheme.rawValue]

end BabylonHealthDemo
