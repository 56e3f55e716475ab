import BabylonHealthDemo.Model

/-! Foundation as the app uses it. URL assembly and the JSON coders work on an
opaque type of data; what the app relies on is stated as Lawful and assumed only
where it is needed. The conversions of Encodable+Collections and the decoding of
a body are the app's own. -/
namespace BabylonHealthDemo
open JsonTree

structure URLComponents where
  scheme : String
  host : String
  path : String
  queryItems : Option (List (String × String))
  deriving DecidableEq, Repr

structure URL where
  components : URLComponents
  deriving DecidableEq, Repr

structure Foundation (Data : Type) where
  buildsURL : URLComponents → Bool
  encode : Json → Option Data
  jsonObject : Data → Option Json
  dataWithJSONObject : Json → Option Data
  parse : Data → Option Json

/- JSON text of an array or a dictionary can be written and read back. -/
structure Foundation.Lawful (F : Foundation Data) : Prop where
  encoded : ∀ j, j.isContainer = true →
    ∃ data k, F.encode j = some data ∧ F.jsonObject data = some k ∧ Same j k
  serialized : ∀ j, j.isContainer = true →
    ∃ data k, F.dataWithJSONObject j = some data ∧ F.parse data = some k ∧ Same j k

variable {Data : Type} (F : Foundation Data)

def URLComponents.url (components : URLComponents) : Option URL :=
  if F.buildsURL components then some ⟨components⟩ else none

/- JSONDecoder().decode(T.self, from: data); every decoding error is one none. -/
def jsonDecode (decode : Json → Option α) (data : Data) : Option α := (F.parse data).bind decode

/- JSONSerialization.data(withJSONObject: object, options: []) under try?. For a
top-level object that is no array and no dictionary it raises an Objective-C
exception, which try? does not catch. -/
def dataWithJSONObject (object : Json) : Except Trap (Option Data) :=
  if object.isContainer then .ok (F.dataWithJSONObject object) else .error .invalidTopLevelObject

def asDictionary (encoded : Json) : Option Json := do
  let data ← F.encode encoded
  let object ← F.jsonObject data
  match object with
  | .dictionary _ => some object
  | _ => none

def asArray (encoded : Json) : Option Json := do
  let data ← F.encode encoded
  let object ← F.jsonObject data
  match object with
  | .array _ => some object
  | _ => none

def decodeObject (decode : Json → Option α) (object : Json) : Except Trap (Option α) := do
  let data ← dataWithJSONObject F object
  .ok (data.bind (jsonDecode F decode))

variable {F}

theorem asDictionarySome (lawful : F.Lawful) (entries : List (String × Json)) :
    ∃ object, asDictionary F (.dictionary entries) = some object ∧ Same (.dictionary entries) object := by
  obtain ⟨data,object,encoded,read,same⟩ := lawful.encoded (.dictionary entries) rfl
  refine ⟨object,?_,same⟩
  simp only [asDictionary,encoded,read,bind,Option.bind]
  cases same
  rfl

theorem asArraySome (lawful : F.Lawful) (elements : List Json) :
    ∃ object, asArray F (.array elements) = some object ∧ Same (.array elements) object := by
  obtain ⟨data,object,encoded,read,same⟩ := lawful.encoded (.array elements) rfl
  refine ⟨object,?_,same⟩
  simp only [asArray,encoded,read,bind,Option.bind]
  cases same
  rfl

theorem decodeObjectContainer (lawful : F.Lawful) {decode : Json → Option α} (respects : Respects decode)
    {object : Json} (container : object.isContainer = true) :
    decodeObject F decode object = .ok (decode object) := by
  obtain ⟨data,k,written,read,same⟩ := lawful.serialized object container
  simp only [decodeObject,dataWithJSONObject,if_pos container,written,bind,Except.bind,Option.bind,
    jsonDecode,read,respects _ _ same]

theorem decodeObjectScalar {decode : Json → Option α} {object : Json}
    (scalar : object.isContainer = false) :
    decodeObject F decode object = .error .invalidTopLevelObject := by
  simp [decodeObject,dataWithJSONObject,scalar,bind,Except.bind]

/- Data that is the value itself. -/
def plainFoundation : Foundation Json := ⟨fun _ => true,some,some,some,some⟩

theorem plainLawful : plainFoundation.Lawful :=
  ⟨fun j _ => ⟨j,j,rfl,rfl,sameRefl j⟩,fun j _ => ⟨j,j,rfl,rfl,sameRefl j⟩⟩

def samplePost (postId : Int64) : Post := ⟨1,postId,"title","body"⟩

def sampleUser (userId : Int64) : User :=
  ⟨userId,"name","username","email",⟨"street","suite","city","zipcode",⟨"lat","lng"⟩⟩,"phone","website",
    ⟨"name","catchPhrase","bs"⟩⟩

def sampleComment (postId commentId : Int64) : Comment := ⟨postId,commentId,"name","email","body"⟩

end BabylonHealthDemo
