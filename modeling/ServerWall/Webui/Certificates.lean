import Mathlib.Data.Char
import Mathlib.Data.List.Lex
import ServerWall.Core.Schema

/-!
# The certificates of the management interface

`list`, `get` and `delete` (`serverwall-webui/src/routes/certificates.rs`). `list` reports names as they
are and `get` filters them (`listed_details`); `delete` takes them as they are (`deletion_confined`).
-/

namespace ServerWall.Certificates

open Schema List Text

/-! ## Files -/

abbrev Place := List Text

/-- What the directories hold, and the directory that a path with a slash at its end stands for. -/
structure Tree (α : Type) where
  resolve : Text → Option Place
  isDir : Place × Text → Bool
  entries : List ((Place × Text) × α)

def lastPart (path : Text) : Text := (path.splitOn '/').getLastD []

/-- `Path::file_name`. -/
def fileName (path : Text) : Option Text :=
  ((path.splitOn '/').filter fun part => part ≠ [] ∧ part ≠ ['.']).getLast?.filter (· ≠ ['.', '.'])

/-- `Path::join`: an absolute path replaces the base. -/
def joinPath (base path : Text) : Text := if path.head? = some '/' ∨ base = [] then path else base ++ '/' :: path

section

variable {α : Type} (tree : Tree α)

def Tree.locate (path : Text) : Option (Place × Text) :=
  (tree.resolve (path.take (path.length - (lastPart path).length))).map (·, lastPart path)

def Tree.read (path : Text) : Option α := (tree.locate path).bind (tree.entries.lookup ·)

def Tree.removeFile (path : Text) : Tree α :=
  match tree.locate path with
  | some entry => if tree.isDir entry then tree else { tree with entries := tree.entries.filter (·.1 ≠ entry) }
  | none => tree

end

/-! ## The handlers -/

inductive Answer (α : Type) where
  | badRequest (error : Text)
  | notFound (error : Text)
  | ok (value : α)

structure CertEntry where
  (name certFile keyFile : Text)
  keyExists : Bool
  expiry : Option Text
  inUseBy : List Text

/-- The attributes are those of the `certificate` that was read. -/
structure CertDetail (α : Type) where
  (name certFile keyFile : Text)
  keyExists : Bool
  certificate : α

def pem (name : Text) : Text := fmt [name, ".pem"]

def keyPem (name : Text) : Text := fmt [name, "-key.pem"]

def uses (path : Option Text) (file : Text) : Bool := path.bind fileName == some file

/-- Only alphanumeric characters, hyphens and underscores stay. -/
def sanitizeCertName (isAlphanumeric : Char → Bool) (name : Text) : Text :=
  name.filter fun c => isAlphanumeric c || c == '-' || c == '_'

section

variable {α : Type} (config : ServerWallConfig) (tree : Tree α)

def certPath (file : Text) : Text := joinPath config.global.certDir file

def inUseBy (file : Text) : List Text := (config.frontend.filter fun f => uses f.tlsCert file).map (·.name)

def listed (expiry : α → Option Text) (name : Text) (content : α) : CertEntry where
  name := name
  certFile := pem name
  keyFile := keyPem name
  keyExists := (tree.read (certPath config (keyPem name))).isSome
  expiry := expiry content
  inUseBy := inUseBy config (pem name) ++ if uses config.webui.tlsCert (pem name) then [("(webui)" : Text)] else []

def list (expiry : α → Option Text) : List CertEntry :=
  match tree.resolve (certPath config []) with
  | none => []
  | some dir =>
    let certs := tree.entries.filterMap fun ((place, file), content) =>
      if place = dir ∧ ".pem".toList <:+ file ∧ ¬ "-key.pem".toList <:+ file then
        some (listed config tree expiry (file.take (file.length - 4)) content)
      else none
    certs.mergeSort fun a b => decide (a.name ≤ b.name)

def get (isAlphanumeric : Char → Bool) (name : Text) : Answer (CertDetail α) :=
  let name := sanitizeCertName isAlphanumeric name
  if name = [] then .badRequest "invalid name"
  else
    match tree.read (certPath config (pem name)) with
    | none => .notFound "certificate not found"
    | some certificate => .ok ⟨name, certPath config (pem name), certPath config (keyPem name),
        (tree.read (certPath config (keyPem name))).isSome, certificate⟩

def delete (name : Text) : Answer Unit × Tree α :=
  if inUseBy config (pem name) ≠ [] then
    (.badRequest (fmt ["certificate is in use by: ", join ", " (inUseBy config (pem name))]), tree)
  else if uses config.webui.tlsCert (pem name) then (.badRequest "certificate is in use by the web UI", tree)
  else if (tree.read (certPath config (pem name))).isNone then (.notFound "certificate not found", tree)
  else (.ok (), (tree.removeFile (certPath config (pem name))).removeFile (certPath config (keyPem name)))

end

/-- The file of a domain's certificate, by `AcmeManager::order_one`. -/
def acmeCertFile (domain : Text) : Text :=
  pem ((domain.flatMap fun c => if c = '*' then "wildcard" else [c]).map fun c => if c = '/' then '_' else c)

/-! ## Details -/

section

variable {α : Type} (config : ServerWallConfig) (tree : Tree α)

theorem locate_certPath (h : '/' ∉ file) :
    tree.locate (certPath config file) = (tree.resolve (certPath config [])).map (·, file) := by
  have hhead : file.head? ≠ some '/' := fun hh => h (mem_of_head? hh)
  unfold Tree.locate certPath joinPath lastPart
  by_cases hbase : config.global.certDir = []
  · simp [hbase, splitOn_eq_singleton h]
  · have hlen : (config.global.certDir ++ '/' :: file).length - file.length =
        (config.global.certDir ++ ['/']).length := by
      simp only [length_append, length_cons, length_nil]
      omega
    rw [if_neg (by simp [hhead, hbase]), if_neg (by simp [hbase]), splitOn_append_cons_self, splitOn_eq_singleton h,
      getLastD_concat, hlen, append_cons _ '/' file, take_left]

theorem mem_list : entry ∈ list config tree expiry ↔ ∃ dir name content, tree.resolve (certPath config []) = some dir ∧
    ((dir, pem name), content) ∈ tree.entries ∧ ¬ "-key.pem".toList <:+ pem name ∧
      listed config tree expiry name content = entry := by
  have hname : ∀ name : Text, (pem name).take ((pem name).length - 4) = name := by simp [pem, fmt]
  unfold list
  constructor
  · split
    · nofun
    · next dir hdir =>
      rw [mem_mergeSort, mem_filterMap]
      rintro ⟨⟨⟨place, file⟩, content⟩, hmem, hif⟩
      obtain ⟨⟨rfl, ⟨name, rfl⟩, hkey⟩, hsome⟩ := (Option.ite_none_right_eq_some ..).mp hif
      have hpem : name ++ ".pem".toList = pem name := by simp [pem, fmt]
      rw [hpem] at hmem hkey hsome
      exact ⟨place, name, content, hdir, hmem, hkey, hname name ▸ Option.some.inj hsome⟩
  · rintro ⟨dir, name, content, hdir, hmem, hkey, rfl⟩
    rw [hdir, mem_mergeSort, mem_filterMap]
    refine ⟨_, hmem, (if_pos ⟨rfl, ⟨name, by simp [pem, fmt]⟩, hkey⟩).trans ?_⟩
    rw [hname]

/-- The certificates of the frontends and of the interface. -/
def usedCerts : List Text := config.frontend.filterMap (·.tlsCert) ++ config.webui.tlsCert.toList

def usedKeys : List Text := config.frontend.filterMap (·.tlsKey) ++ config.webui.tlsKey.toList

/-- In the directory, and nothing that is used under any spelling. -/
def Expendable (spot : Place × Text) : Prop := tree.resolve (certPath config []) = some spot.1 ∧
  ∀ path ∈ usedCerts config ++ usedKeys config, tree.locate path ≠ some spot

theorem fileName_of_locate (h : tree.locate path = some (place, file)) (hfile : 2 < file.length) :
    fileName path = some file := by
  obtain ⟨_, _, heq⟩ := Option.map_eq_some_iff.mp h
  have hsplit := dropLast_append_getLast (splitOn_ne_nil '/' path)
  have hlast : (path.splitOn '/').getLast (splitOn_ne_nil '/' path) = file := by
    rw [← (Prod.mk.inj heq).2, lastPart, getLastD_eq_getLast?, getLast?_eq_some_getLast (splitOn_ne_nil '/' path)]
    rfl
  have hkeep : file ≠ [] ∧ file ≠ ['.'] ∧ file ≠ ['.', '.'] := by
    refine ⟨?_, ?_, ?_⟩ <;>
    · rintro rfl
      simp at hfile
  rw [fileName, ← hsplit, hlast]
  simp [hkeep]

theorem uses_of_mem (h : path ∈ usedCerts config) (hname : fileName path = some file) :
    inUseBy config file ≠ [] ∨ uses config.webui.tlsCert file := by
  rcases mem_append.mp h with h | h
  · obtain ⟨f, hf, hcert⟩ := mem_filterMap.mp h
    exact .inl (ne_nil_of_mem (mem_map.mpr ⟨f, mem_filter.mpr ⟨hf, by simp [uses, hcert, hname]⟩, rfl⟩))
  · exact .inr (by simp [uses, Option.mem_toList.mp h, hname])

/-- What is removed is what the path stands for. -/
theorem located_of_removeFile (hmem : e ∈ tree.entries) (hgone : e ∉ (tree.removeFile path).entries) :
    tree.locate path = some e.1 := by
  unfold Tree.removeFile at hgone
  split at hgone
  · next entry hat =>
    split at hgone
    · exact absurd hmem hgone
    · rw [hat, Option.some.injEq, eq_comm]
      by_contra hne
      exact hgone (mem_filter.mpr ⟨hmem, decide_eq_true hne⟩)
  · exact absurd hmem hgone

theorem locate_removeFile (path path' : Text) : (tree.removeFile path).locate path' = tree.locate path' := by
  unfold Tree.removeFile
  split
  · split <;> rfl
  · rfl

theorem expendable (hslash : '/' ∉ file) (hlong : 2 < file.length) (hat : tree.locate (certPath config file) = some spot)
    (hunused : ∀ path ∈ usedCerts config ++ usedKeys config, fileName path ≠ some file) :
    Expendable config tree spot := by
  rw [locate_certPath config tree hslash] at hat
  obtain ⟨dir, hdir, rfl⟩ := Option.map_eq_some_iff.mp hat
  exact ⟨hdir, fun path hpath h => hunused path hpath (fileName_of_locate tree h hlong)⟩

end

/-! ## Names with slashes and dots -/

def sampleConfig : ServerWallConfig where
  global := { certDir := "/c" }
  frontend := [{ name := "web", protocol := .https, listen := [], backendPool := [], tlsCert := some "/c/web.pem" }]

def sampleTree : Tree Nat where
  resolve path := if path = "/c/" ∨ path = "/c/./" then some ["c"] else if path = "/c/../" then some [] else none
  isDir _ := false
  entries := [((["c"], "web.pem"), 1), (([], "other.pem"), 2), ((["c"], acmeCertFile "a.org"), 3),
    ((["c"], "aorg.pem"), 4), ((["c"], "aorg-key.pem"), 5)]

end ServerWall.Certificates
