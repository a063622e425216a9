import XdsClient.Ads.Messages
import XdsClient.Library.Codec

/-! # Decoding the resources of a response

A response carries its resources as `Any`s: bare, or inside the `Resource` wrapper that adds
a name, aliases and a version. The protobuf runtime enters through the codec of each message
type. An exception is the only way in which the functions of this module could refuse their
input, so all of them run in `Decoding`, which also keeps what they print.
-/
namespace XdsClient.Resources
open Library Ads

/-- A protobuf message type: its codec, its full name and the reflection on its string
fields. -/
structure MessageType (M : Type*) extends Codec M where
  fullName : String
  stringField : M → String → String

def pack {M : Type*} (type : MessageType M) (message : M) : Any where
  typeUrl := "type.googleapis.com/" ++ type.fullName
  value := type.serialize message

/-- `Any::Is`: the type URL ends in a slash and the full name. -/
def is (any : Any) (fullName : String) : Bool :=
  ("/" ++ fullName).toList.isSuffixOf any.typeUrl.toList

structure Resource where
  name : String := ""
  aliases : List String := []
  version : String := ""
  resource : Option Any := none
  deriving DecidableEq, Repr

def resourceFullName : String := "envoy.service.discovery.v3.Resource"

structure InlineEntry where
  name : String := ""
  version : String := ""
  resource : Option Any := none
  deriving DecidableEq, Repr

structure EnvoyException where
  what : String
  deriving DecidableEq, Repr

/-- A computation that may throw; its state is the list of the lines printed so far. -/
abbrev Decoding := StateT (List String) (Except EnvoyException)

def Decoding.outcome {α : Type} (decoding : Decoding α) : Except EnvoyException α :=
  decoding.run' []

section OpaqueResourceDecoder
variable {M : Type}

/-- The throw is commented out in the source: bytes that do not parse are only reported on
the console. -/
def unpackToOrThrow (codec : Codec M) (anyMessage : Any) : Decoding M :=
  match codec.parse anyMessage.value with
  | some message => pure message
  | none => do
    modify (· ++ ["failed to parsed"])
    pure (codec.residue anyMessage.value)

def anyConvert (codec : Codec M) (message : Any) : Decoding M := unpackToOrThrow codec message

/-- The call of `validate` is commented out in the source. -/
def anyConvertAndValidate (codec : Codec M) (message : Any) : Decoding M := anyConvert codec message

/-- The body of the source is `return ""`. -/
def getStringField (_message : M) (_fieldName : String) : String := ""

structure OpaqueResourceDecoder (M : Type) where
  decodeResource : Any → Decoding M
  resourceName : M → String

def decodeResource (codec : Codec M) (resource : Any) : Decoding M :=
  -- an `Any` without a type URL is a synthetic empty message and is not decoded
  if resource.typeUrl ≠ "" then anyConvertAndValidate codec resource else pure codec.empty

def opaqueResourceDecoderImpl (codec : Codec M) (nameField : String) : OpaqueResourceDecoder M where
  decodeResource := decodeResource codec
  resourceName message := getStringField message nameField

end OpaqueResourceDecoder

structure DecodedResource (M : Type) where
  resource : M
  hasResource : Bool
  name : String
  aliases : List String
  version : String

namespace DecodedResource
variable {M : Type} (decoder : OpaqueResourceDecoder M)

def construct (name : String) (aliases : List String) (resource : Any) (hasResource : Bool)
    (version : String) : Decoding (DecodedResource M) := do
  let message ← decoder.decodeResource resource
  let fallback := decoder.resourceName message
  pure ⟨message, hasResource, if name ≠ "" then name else fallback, aliases, version⟩

/-- The constructor from a wrapper. It passes an empty list where the aliases belong. -/
def ofResource (resource : Resource) : Decoding (DecodedResource M) :=
  construct decoder resource.name [] (resource.resource.getD {}) resource.resource.isSome
    resource.version

def ofInlineEntry (inlineEntry : InlineEntry) : Decoding (DecodedResource M) :=
  construct decoder inlineEntry.name [] (inlineEntry.resource.getD {}) true inlineEntry.version

def ofMessage (resource : M) (name : String) (aliases : List String) (version : String) :
    DecodedResource M := ⟨resource, true, name, aliases, version⟩

/-- `wrapper` is the codec of `Resource`. -/
def fromResource (wrapper : Codec Resource) (resource : Any) (version : String) :
    Decoding (DecodedResource M) :=
  if is resource resourceFullName then do
    let r ← unpackToOrThrow wrapper resource
    ofResource decoder { r with version := version }
  else construct decoder "" [] resource true version

end DecodedResource

section Outcome
variable {M : Type} (codec : Codec M) (nameField : String) (printed : List String)

def complaints (bytes : List UInt8) : List String :=
  if (codec.parse bytes).isSome then [] else ["failed to parsed"]

theorem unpackToOrThrow_run (any : Any) :
    (unpackToOrThrow codec any).run printed =
      .ok (codec.fill any.value, printed ++ complaints codec any.value) := by
  unfold unpackToOrThrow
  cases h : codec.parse any.value with
  | none =>
    simp [Codec.fill, complaints, h]
    rfl
  | some message =>
    simp [Codec.fill, complaints, h]
    rfl

def decoded (any : Any) : M × List String :=
  if any.typeUrl ≠ "" then (codec.fill any.value, complaints codec any.value) else (codec.empty, [])

theorem decodeResource_run (any : Any) :
    (decodeResource codec any).run printed =
      .ok ((decoded codec any).1, printed ++ (decoded codec any).2) := by
  unfold decodeResource decoded
  split_ifs with h
  · exact unpackToOrThrow_run codec printed any
  · simp
    rfl

/-- The name fallback finds the empty string, so an empty name stays empty. -/
theorem construct_run (name : String) (aliases : List String) (any : Any) (hasResource : Bool)
    (version : String) :
    (DecodedResource.construct (opaqueResourceDecoderImpl codec nameField) name aliases any
        hasResource version).run printed =
      .ok (⟨(decoded codec any).1, hasResource, name, aliases, version⟩,
        printed ++ (decoded codec any).2) := by
  have hname : (if name ≠ "" then name else "") = name := by
    split_ifs with h
    · rfl
    · exact (not_not.mp h).symm
  simp only [DecodedResource.construct, opaqueResourceDecoderImpl, getStringField, hname,
    StateT.run_bind, decodeResource_run]
  rfl

end Outcome
end XdsClient.Resources
