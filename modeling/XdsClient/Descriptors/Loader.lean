import XdsClient.Library.Codec

/-! # The two loaders of file descriptors

`internal::loadFileDescriptors` and `TextFormatTranscoder::loadFileDescriptors` walk the same
records. What they use of the protobuf runtime and of the base64 decoder enters as a
structure that carries the documented behaviour.
-/
namespace XdsClient.Descriptors
open Library

/-- `FileDescriptorInfo`. The records point to each other without a cycle, so that a record is
the finite tree of what it points to; the null at the end of `deps` is the end of the list. -/
inductive FileDescriptorInfo where
  | mk (fileName : String) (fileDescriptorBytesBase64 : String) (deps : List FileDescriptorInfo)

namespace FileDescriptorInfo

def fileName : FileDescriptorInfo → String
  | .mk fileName _ _ => fileName

def fileDescriptorBytesBase64 : FileDescriptorInfo → String
  | .mk _ fileDescriptorBytesBase64 _ => fileDescriptorBytesBase64

def deps : FileDescriptorInfo → List FileDescriptorInfo
  | .mk _ _ deps => deps

end FileDescriptorInfo

/-- `google.protobuf.FileDescriptorProto`, of which the loaders only need the name, which may
be absent, and the imports. -/
structure FileDescriptorProto where
  name : Option String := none
  dependency : List String := []
  deriving DecidableEq, Repr

/-- The runtime behind the loaders; `files` are the names of the files that were added to a
pool, the oldest first. -/
structure Runtime (Pool : Type) where
  codec : Codec FileDescriptorProto
  /-- `absl::Base64Unescape`; the destination is cleared if the text is not base64. -/
  base64Unescape : String → Option (List UInt8)
  files : Pool → List String
  findFileByName : Pool → String → Bool
  buildFile : Pool → FileDescriptorProto → Pool
  /-- No bytes at all are a message without any field. -/
  parse_nil : codec.parse [] = some {}
  findFileByName_iff : ∀ pool name, findFileByName pool name = true ↔ name ∈ files pool
  /-- A file is added under its name when its dependencies are in the pool. -/
  files_buildFile : ∀ pool proto name, proto.name = some name → name ∉ files pool →
    (∀ dependency ∈ proto.dependency, dependency ∈ files pool) →
    files (buildFile pool proto) = files pool ++ [name]
  /-- A proto without a name is refused with "Missing field: FileDescriptorProto.name". -/
  buildFile_unnamed : ∀ pool proto, proto.name = none → buildFile pool proto = pool

section Load
variable {Pool : Type} (runtime : Runtime Pool) (bytes : String → List UInt8)

mutual

/-- The body that both loaders share; they differ in how they get the bytes of the file. -/
def loadWith : FileDescriptorInfo → Pool → Pool
  | .mk fileName fileDescriptorBytesBase64 deps, pool =>
    if runtime.findFileByName pool fileName then pool
    else
      let pool := loadDeps deps pool
      -- the result of `ParseFromString` is not looked at
      runtime.buildFile pool (runtime.codec.fill (bytes fileDescriptorBytesBase64))

def loadDeps : List FileDescriptorInfo → Pool → Pool
  | [], pool => pool
  | dep :: deps, pool => loadDeps deps (loadWith dep pool)

end

def loadFileDescriptors : FileDescriptorInfo → Pool → Pool :=
  loadWith runtime fun base64 => (runtime.base64Unescape base64).getD []

/-- The member of `TextFormatTranscoder`, on its own pool. The call of the base64 decoder is
commented out, so that there are never any bytes. -/
def TextFormatTranscoder.loadFileDescriptors : FileDescriptorInfo → Pool → Pool :=
  loadWith runtime fun _ => []

end Load
end XdsClient.Descriptors
