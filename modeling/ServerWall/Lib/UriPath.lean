import ServerWall.Lib.Text

/-!
# Spellings of a path

The normal form of an absolute URI path by RFC 3986: octets of unreserved characters are written as
those characters (6.2.2.2), and dot segments are removed (5.2.4). `Under` is the order of paths by
segments. Hexadecimal digits keep their case, and other octets stay encoded.
-/

namespace ServerWall.UriPath

def isUnreserved (c : Char) : Bool := c.isAlphanum || c ∈ ['-', '.', '_', '~']

def hexValue? (c : Char) : Option Nat := if '0' ≤ c && c ≤ '9' then some (c.toNat - 48)
  else if 'a' ≤ c && c ≤ 'f' then some (c.toNat - 87)
  else if 'A' ≤ c && c ≤ 'F' then some (c.toNat - 55)
  else none

def unreservedOf (a b : Char) : Option Char := do
  let high ← hexValue? a
  let low ← hexValue? b
  let c := Char.ofNat (16 * high + low)
  if isUnreserved c then some c else none

def decodeUnreserved : Text → Text
  | '%' :: a :: b :: t =>
    match unreservedOf a b with
    | some c => c :: decodeUnreserved t
    | none => '%' :: decodeUnreserved (a :: b :: t)
  | c :: t => c :: decodeUnreserved t
  | [] => []

/-- The segments that are left, given those kept so far, the last one first. A dot segment at
the end leaves an empty one. -/
def removeDots : List Text → List Text → List Text
  | [], kept => kept.reverse
  | [segment], kept =>
    if segment = ['.'] then ([] :: kept).reverse
    else if segment = ['.', '.'] then ([] :: kept.tail).reverse
    else (segment :: kept).reverse
  | segment :: next :: rest, kept =>
    if segment = ['.'] then removeDots (next :: rest) kept
    else if segment = ['.', '.'] then removeDots (next :: rest) kept.tail
    else removeDots (next :: rest) (segment :: kept)

/-- An absolute path without its dot segments; anything else is left alone. -/
def removeDotSegments : Text → Text
  | '/' :: t => '/' :: Text.join ['/'] (removeDots (t.splitOn '/') [])
  | t => t

def normalForm (path : Text) : Text := removeDotSegments (decodeUnreserved path)

def Alike (path path' : Text) : Prop := normalForm path = normalForm path'

/-- The path is `top`, or continues it at the end of a segment. -/
def Under (top path : Text) : Prop := path = top ∨ top ++ ['/'] <+: path ∨ (top.getLast? = some '/' ∧ top <+: path)

instance (top path : Text) : Decidable (Under top path) := inferInstanceAs (Decidable (_ ∨ _ ∨ _))

-- the examples of RFC 3986, 5.2.4 and 6.2.2
example : normalForm "/a/b/c/./../../g".toList = "/a/g".toList := by decide
example : normalForm "/%61/%2e%2E/b%2fc/..".toList = "/".toList := by decide

theorem Alike.eq (h : Alike path path') (hp : normalForm path = path) (hp' : normalForm path' = path') : path = path' :=
  hp.symm.trans (h.trans hp')

end ServerWall.UriPath
