import ServerWall.Lib.Net

/-!
# The request as the WAF sees it

`serverwall-waf/src/request.rs`: the path is the target up to the first question mark, as the client
spelled it; cookies are read off the one `Cookie` header. A `HashMap<String, String>` is a list of
entries without a key twice (`Fields`), in the order in which the map happens to iterate.
-/

namespace ServerWall.Waf

open List

/-! ## Maps of strings -/

structure Fields where
  entries : List (Text × Text)
  distinct : (entries.map Prod.fst).Nodup

namespace Fields

def empty : Fields := ⟨[], nodup_nil⟩

def get? (fields : Fields) (key : Text) : Option Text := (fields.entries.find? fun e => e.1 == key).map Prod.snd

def values (fields : Fields) : List Text := fields.entries.map Prod.snd

def len (fields : Fields) : Nat := fields.entries.length

def insert (fields : Fields) (key value : Text) : Fields where
  entries := fields.entries.filter (fun e => e.1 != key) ++ [(key, value)]
  distinct := by
    rw [map_append, nodup_append]
    refine ⟨fields.distinct.sublist (filter_sublist.map _), by simp, ?_⟩
    intro k hk k' hk' heq
    obtain ⟨e, he, rfl⟩ := mem_map.mp hk
    obtain rfl : k' = key := by simpa using hk'
    exact bne_iff_ne.mp (mem_filter.mp he).2 heq

/-- `collect` into a map: a later entry of one key replaces an earlier one. -/
def ofPairs (pairs : List (Text × Text)) : Fields := pairs.foldl (fun fields p => fields.insert p.1 p.2) empty

theorem get?_eq_some {fields : Fields} {key value : Text} :
    fields.get? key = some value ↔ (key, value) ∈ fields.entries := by
  obtain ⟨entries, hd⟩ := fields
  show (entries.find? fun e => e.1 == key).map Prod.snd = some value ↔ (key, value) ∈ entries
  induction entries with
  | nil => simp
  | cons e rest ih =>
    obtain ⟨k, v⟩ := e
    rw [map_cons, nodup_cons] at hd
    by_cases hk : k = key
    · subst hk
      have hr : (k, value) ∉ rest := fun h => hd.1 (mem_map.mpr ⟨_, h, rfl⟩)
      simp [hr, eq_comm]
    · simp [hk, Ne.symm hk, ih hd.2]

theorem get?_perm {fields fields' : Fields} (hp : fields.entries.Perm fields'.entries)
    (key : Text) : fields.get? key = fields'.get? key := by
  apply Option.ext
  intro value
  rw [get?_eq_some, get?_eq_some, hp.mem_iff]

end Fields

/-! ## The context -/

structure HttpRequestContext where
  (method uri path queryString : Text)
  (headers cookies : Fields)
  body : Bytes
  remoteAddr : IpAddr
  protocol : Text
  ja3Fingerprint : Option Text

/-- What stands before the first occurrence of a character and what after it; all and
nothing if there is none. -/
def splitFirst (c : Char) (t : Text) : Text × Text := (t.takeWhile (· != c), (t.dropWhile (· != c)).drop 1)

/-- One `name=value` of a `Cookie` header; a pair without a name is skipped. -/
def cookiePair (pair : Text) : Option (Text × Text) :=
  let parts := splitFirst '=' pair.trim
  if parts.1.trim.isEmpty then none else some (parts.1.trim, parts.2.trim)

namespace HttpRequestContext

variable (unicode : Unicode)

def fromParts (method uri : Text) (headers : Fields) (body : Bytes) (clientIp : IpAddr)
    (ja3Fingerprint : Option Text) : HttpRequestContext where
  method := unicode.toUppercase method
  uri := uri
  path := (splitFirst '?' uri).1
  queryString := (splitFirst '?' uri).2
  headers := headers
  cookies := match (headers.get? "cookie").or (headers.get? "Cookie") with
    | some header => .ofPairs ((header.splitOn ';').filterMap cookiePair)
    | none => .empty
  body := body
  remoteAddr := clientIp
  protocol := (headers.get? "x-forwarded-proto").getD "http"
  ja3Fingerprint := ja3Fingerprint

def userAgent (ctx : HttpRequestContext) : Option Text :=
  (ctx.headers.get? "user-agent").or (ctx.headers.get? "User-Agent")

def bodySize (ctx : HttpRequestContext) : Nat := ctx.body.length

def headerCount (ctx : HttpRequestContext) : Nat := ctx.headers.len

end HttpRequestContext

end ServerWall.Waf
