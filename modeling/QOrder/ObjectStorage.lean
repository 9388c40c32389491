import Mathlib.Logic.Function.Basic

/-! The object store: one bucket for all restaurants. A public URL names the bucket and the
key of an object. -/

namespace QOrder

abbrev Blob := List UInt8

structure StorageSettings where
  s3Bucket : String
  s3PublicUrl : String

/-- The defaults of the configuration. -/
def assets : StorageSettings := ⟨"qorder-assets", "http://localhost:9000"⟩

/-- `str.rstrip("/")` -/
def rstripSlash (s : String) : String := String.ofList (s.toList.reverse.dropWhile (· = '/')).reverse

/-- The last part of `str.partition`; `none` where the separator does not occur. -/
def afterFirst (sep : List Char) : List Char → Option (List Char)
  | [] => none
  | c :: text =>
    if sep.isPrefixOf (c :: text) then some ((c :: text).drop sep.length) else afterFirst sep text

def getPublicUrl (settings : StorageSettings) (key : String) : String :=
  rstripSlash settings.s3PublicUrl ++ "/" ++ settings.s3Bucket ++ "/" ++ key

def keyFromPublicUrl (settings : StorageSettings) (url : String) : Option String :=
  match afterFirst ("/" ++ settings.s3Bucket ++ "/").toList url.toList with
  | some (c :: key) => some (String.ofList (c :: key))
  | _ => none

theorem afterFirst_append {sep text : List Char} (h : sep ≠ []) : afterFirst sep (sep ++ text) = some text := by
  cases sep with
  | nil => exact absurd rfl h
  | cons c sep =>
    rw [List.cons_append, afterFirst, if_pos]
    · rw [← List.cons_append, List.drop_left]
    · rw [← List.cons_append, List.isPrefixOf_iff_prefix]
      exact List.prefix_append ..

/-- A text that begins with the bucket's name between slashes is a URL of any key. -/
theorem keyFromPublicUrl_bucket {settings : StorageSettings} {key : String} (h : key ≠ "") :
    keyFromPublicUrl settings ("/" ++ settings.s3Bucket ++ "/" ++ key) = some key := by
  have hafter : afterFirst ("/" ++ settings.s3Bucket ++ "/").toList
      ("/" ++ settings.s3Bucket ++ "/" ++ key).toList = some key.toList := by
    rw [String.toList_append (s := "/" ++ settings.s3Bucket ++ "/")]
    exact afterFirst_append (by simp)
  rw [keyFromPublicUrl, hafter]
  cases hk : key.toList with
  | nil => exact absurd (String.toList_eq_nil_iff.mp hk) h
  | cons c text =>
    change some (String.ofList (c :: text)) = some key
    rw [← hk, String.ofList_toList]

/-- The objects of the bucket, and the keys whose object has been overwritten or deleted. -/
structure ObjectStore where
  objects : String → Option Blob
  replaced : List String := []

namespace ObjectStore

variable (store : ObjectStore)

def replace (key : String) (object : Option Blob) : ObjectStore where
  objects := Function.update store.objects key object
  replaced := if (store.objects key).isSome then key :: store.replaced else store.replaced

def putObject (key : String) (data : Blob) : ObjectStore := store.replace key (some data)

def deleteObject (key : String) : ObjectStore := store.replace key none

end ObjectStore

/-- How a `put_object` ends. Its answer may be lost after the object has been stored. -/
inductive PutOutcome
  | stored | unanswered | failed
  deriving DecidableEq, Repr

/-- What befalls one request: the clock it reads, and how its calls of the object store and
its commit end. -/
structure Conditions where
  now : Int
  put : String → PutOutcome
  deletes : String → Bool
  commits : Bool

/-- `none` where the call raises. -/
def uploadFile (settings : StorageSettings) (c : Conditions) (store : ObjectStore) (key : String)
    (data : Blob) : Option String × ObjectStore :=
  match c.put key with
  | .stored => (some (getPublicUrl settings key), store.putObject key data)
  | .unanswered => (none, store.putObject key data)
  | .failed => (none, store)

/-- A failure is logged, by `delete_file` or by its caller. -/
def deleteFile (c : Conditions) (store : ObjectStore) (key : String) : ObjectStore :=
  if c.deletes key then store.deleteObject key else store

namespace ObjectStore

variable {store : ObjectStore} {settings : StorageSettings} {c : Conditions} {key k : String}
  {object : Option Blob} {data : Blob}

theorem mem_replace : k ∈ (store.replace key object).replaced ↔
    k ∈ store.replaced ∨ k = key ∧ (store.objects key).isSome := by
  unfold replace
  cases (store.objects key).isSome with
  | true => simp [or_comm]
  | false => simp

theorem replace_of_ne (hk : k ≠ key) : (store.replace key object).objects k = store.objects k :=
  Function.update_of_ne hk ..

theorem uploadFile_url : (uploadFile settings c store key data).1 =
    if c.put key = .stored then some (getPublicUrl settings key) else none := by
  unfold uploadFile
  cases c.put key <;> rfl

theorem uploadFile_objects (hk : k ≠ key) :
    (uploadFile settings c store key data).2.objects k = store.objects k := by
  unfold uploadFile
  cases c.put key with
  | stored | unanswered => exact replace_of_ne hk
  | failed => rfl

theorem uploadFile_replaced (hk : k ≠ key) :
    k ∈ (uploadFile settings c store key data).2.replaced ↔ k ∈ store.replaced := by
  unfold uploadFile
  cases c.put key with
  | stored | unanswered => simp [putObject, mem_replace, hk]
  | failed => rfl

theorem mem_deleteFile : k ∈ (deleteFile c store key).replaced ↔
    k ∈ store.replaced ∨ k = key ∧ (store.objects key).isSome ∧ c.deletes key = true := by
  unfold deleteFile
  cases c.deletes key with
  | true => simp [deleteObject, mem_replace]
  | false => simp

end ObjectStore

end QOrder
