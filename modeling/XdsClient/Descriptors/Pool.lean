import XdsClient.Descriptors.Loader

/-! # A pool of file descriptors

A runtime whose pool is the list of the protos that were added, with the wire format of the two
fields that are kept and the padded form of base64.
-/
namespace XdsClient.Descriptors
open Library

/-! ## Base64 -/

def sextet? (c : Char) : Option ℕ :=
  if 'A' ≤ c ∧ c ≤ 'Z' then some (c.toNat - 65)
  else if 'a' ≤ c ∧ c ≤ 'z' then some (c.toNat - 71)
  else if '0' ≤ c ∧ c ≤ '9' then some (c.toNat + 4)
  else if c = '+' then some 62
  else if c = '/' then some 63
  else none

/-- Four digits are three bytes; the last group may be filled up with equality signs. -/
def unescape : List Char → Option (List UInt8)
  | [] => some []
  | [a, b, '=', '='] => do
    let n := 64 * (← sextet? a) + (← sextet? b)
    some [UInt8.ofNat (n / 16)]
  | [a, b, c, '='] => do
    let n := 4096 * (← sextet? a) + 64 * (← sextet? b) + (← sextet? c)
    some [UInt8.ofNat (n / 1024), UInt8.ofNat (n / 4 % 256)]
  | a :: b :: c :: d :: rest => do
    let n := 262144 * (← sextet? a) + 4096 * (← sextet? b) + 64 * (← sextet? c) + (← sextet? d)
    let bytes ← unescape rest
    some (UInt8.ofNat (n / 65536) :: UInt8.ofNat (n / 256 % 256) :: UInt8.ofNat (n % 256) :: bytes)
  | _ => none

/-! ## The wire format -/

def protoFields (proto : FileDescriptorProto) : List Field :=
  (proto.name.toList.map fun name => (1, utf8 name)) ++
    proto.dependency.map fun dependency => (3, utf8 dependency)

/-- A field that is not kept is skipped. -/
def assignProto (proto : FileDescriptorProto) : Field → Option FileDescriptorProto
  | (1, payload) => (ofUtf8? payload).map fun name => { proto with name := some name }
  | (3, payload) => (ofUtf8? payload).map fun dependency =>
      { proto with dependency := proto.dependency ++ [dependency] }
  | _ => some proto

theorem foldlM_dependency (dependency : List String) (proto : FileDescriptorProto) :
    (dependency.map fun d => (3, utf8 d)).foldlM assignProto proto =
      some { proto with dependency := proto.dependency ++ dependency } := by
  induction dependency generalizing proto with
  | nil => simp
  | cons d dependency ih => simp [assignProto, ih]

theorem foldlM_protoFields (proto : FileDescriptorProto) :
    (protoFields proto).foldlM assignProto {} = some proto := by
  obtain ⟨name, dependency⟩ := proto
  cases name <;> simp [protoFields, assignProto, foldlM_dependency]

def protoCodec : Codec FileDescriptorProto := .ofFields assignProto {} protoFields foldlM_protoFields

/-! ## The pool -/

def poolFiles (pool : List FileDescriptorProto) : List String := pool.filterMap FileDescriptorProto.name

/-- A proto is added if it has a name that is new and its dependencies are there. -/
def buildFile (pool : List FileDescriptorProto) (proto : FileDescriptorProto) :
    List FileDescriptorProto :=
  match proto.name with
  | some name =>
    if name ∉ poolFiles pool ∧ ∀ dependency ∈ proto.dependency, dependency ∈ poolFiles pool then
      pool ++ [proto]
    else pool
  | none => pool

def listRuntime : Runtime (List FileDescriptorProto) where
  codec := protoCodec
  base64Unescape text := unescape text.toList
  files := poolFiles
  findFileByName pool name := (poolFiles pool).contains name
  buildFile := buildFile
  parse_nil := rfl
  findFileByName_iff pool name := List.contains_iff_mem
  files_buildFile pool proto name hname hnew hdeps := by
    rw [buildFile, hname]
    simp only [hnew, not_false_eq_true, true_and]
    rw [if_pos hdeps]
    simp [poolFiles, hname]
  buildFile_unnamed pool proto hname := by rw [buildFile, hname]

end XdsClient.Descriptors
