import XdsClient.Resources.Wire

/-! # What a caller of `fromResource` gets

`fromResource` always returns an object. It keeps the message, the version and a name written
in the wrapper; the name field of the message and the aliases are lost, and bytes that do not
parse go through as whatever they left behind.
-/
namespace XdsClient.Resources
open Library Ads

section Spec
variable {M : Type} (codec : Codec M) (wrapper : Codec Resource) (nameField : String)

def ofBare (any : Any) (version : String) : DecodedResource M :=
  ⟨(decoded codec any).1, true, "", [], version⟩

def ofWrapper (r : Resource) (version : String) : DecodedResource M :=
  ⟨(decoded codec (r.resource.getD {})).1, r.resource.isSome, r.name, [], version⟩

variable (any : Any) (version : String)

theorem fromResource_bare (h : is any resourceFullName = false) :
    (DecodedResource.fromResource (opaqueResourceDecoderImpl codec nameField) wrapper any
      version).outcome = .ok (ofBare codec any version) := by
  simp only [DecodedResource.fromResource, h, Bool.false_eq_true, if_false, Decoding.outcome,
    StateT.run'_eq, construct_run]
  rfl

theorem fromResource_wrapped (h : is any resourceFullName = true) :
    (DecodedResource.fromResource (opaqueResourceDecoderImpl codec nameField) wrapper any
      version).outcome = .ok (ofWrapper codec (wrapper.fill any.value) version) := by
  simp only [DecodedResource.fromResource, h, if_true, Decoding.outcome, StateT.run'_eq,
    StateT.run_bind, unpackToOrThrow_run]
  simp only [bind, Except.bind, DecodedResource.ofResource, construct_run]
  rfl

theorem decodeResource_outcome : (decodeResource codec any).outcome = .ok (decoded codec any).1 := by
  simp only [Decoding.outcome, StateT.run'_eq, decodeResource_run]
  rfl

/-- No input makes `fromResource` throw. -/
theorem fromResource_returns :
    ∃ d, (DecodedResource.fromResource (opaqueResourceDecoderImpl codec nameField) wrapper any
      version).outcome = .ok d := by
  cases h : is any resourceFullName with
  | false => exact ⟨_, fromResource_bare codec wrapper nameField any version h⟩
  | true => exact ⟨_, fromResource_wrapped codec wrapper nameField any version h⟩

end Spec

section Agreement
variable {M : Type}

/-- A message type whose `Any`s are bare resources: `Any::Is` does not take them for the
wrapper. -/
structure ResourceType (M : Type) extends MessageType M where
  bare : ∀ message, is (pack toMessageType message) resourceFullName = false

def resourceType (wrapper : Codec Resource) : MessageType Resource :=
  { wrapper with fullName := resourceFullName, stringField := fun r _ => r.name }

/-- The type URL alone decides. -/
theorem is_pack (type : MessageType M) (message : M) (fullName : String) :
    is (pack type message) fullName =
      ("/" ++ fullName).toList.isSuffixOf ("type.googleapis.com/" ++ type.fullName).toList := rfl

theorem is_pack_resource (wrapper : Codec Resource) (r : Resource) :
    is (pack (resourceType wrapper) r) resourceFullName = true := by
  have hname : (resourceType wrapper).fullName = resourceFullName := rfl
  rw [is_pack, hname]
  decide

theorem pack_typeUrl_ne (fullName : String) : "type.googleapis.com/" ++ fullName ≠ "" := by
  intro h
  have hchars := congrArg String.toList h
  rw [String.toList_append] at hchars
  exact absurd (List.append_eq_nil_iff.mp hchars).1 (by decide)

theorem decoded_pack (type : MessageType M) (message : M) :
    (decoded type.toCodec (pack type message)).1 = message := by
  have hurl : (pack type message).typeUrl ≠ "" := pack_typeUrl_ne type.fullName
  rw [decoded, if_pos hurl]
  exact type.fill_serialize message

/-- The object shows the message under its name, in the version of the response. -/
def Exposes (d : DecodedResource M) (message : M) (name version : String) : Prop :=
  d.resource = message ∧ d.name = name ∧ d.version = version ∧ d.hasResource = true

/-- The message decodes to itself from its bare form and from every wrapper around it that is
unnamed or carries its name, and the wrapped form also shows the aliases. -/
def DecodesAlike (type : ResourceType M) (wrapper : Codec Resource) (nameField : String)
    (message : M) (aliases : List String) (version : String) : Prop :=
  let decoder := opaqueResourceDecoderImpl type.toCodec nameField
  let name := type.stringField message nameField
  (∃ d, (DecodedResource.fromResource decoder wrapper (pack type.toMessageType message)
      version).outcome = .ok d ∧ Exposes d message name version) ∧
    ∀ r : Resource, r.resource = some (pack type.toMessageType message) →
      (r.name = "" ∨ r.name = name) → r.aliases = aliases →
      ∃ d, (DecodedResource.fromResource decoder wrapper (pack (resourceType wrapper) r)
        version).outcome = .ok d ∧ Exposes d message name version ∧ d.aliases = aliases

variable (type : ResourceType M) (wrapper : Codec Resource) (nameField : String) (message : M)
  (aliases : List String) (version : String)

/-- The bare form shows no name. -/
theorem DecodesAlike.name_eq
    (h : DecodesAlike type wrapper nameField message aliases version) :
    type.stringField message nameField = "" := by
  obtain ⟨⟨d, hd, -, hname, -⟩, -⟩ := h
  rw [fromResource_bare type.toCodec wrapper nameField _ version (type.bare message)] at hd
  rcases Except.ok.inj hd with rfl
  exact hname.symm

/-- The unnamed wrapper shows no alias. -/
theorem DecodesAlike.aliases_eq
    (h : DecodesAlike type wrapper nameField message aliases version) : aliases = [] := by
  let r : Resource := ⟨"", aliases, version, some (pack type.toMessageType message)⟩
  obtain ⟨d, hd, -, haliases⟩ := h.2 r rfl (.inl rfl) rfl
  rw [fromResource_wrapped type.toCodec wrapper nameField _ version
    (is_pack_resource wrapper r)] at hd
  rcases Except.ok.inj hd with rfl
  exact haliases.symm

/-- Wrapping loses nothing only where there is nothing to lose: the fallback never finds a
name, and no constructor hands the aliases on. -/
theorem decodes_alike_iff :
    DecodesAlike type wrapper nameField message aliases version ↔
      type.stringField message nameField = "" ∧ aliases = [] := by
  constructor
  · intro h
    exact ⟨h.name_eq, h.aliases_eq⟩
  · rintro ⟨hname, rfl⟩
    have hmessage := decoded_pack type.toMessageType message
    have hfill : ∀ r, wrapper.fill (pack (resourceType wrapper) r).value = r :=
      wrapper.fill_serialize
    refine ⟨⟨_, fromResource_bare type.toCodec wrapper nameField _ version (type.bare message),
      hmessage, hname.symm, rfl, rfl⟩, fun r hr hrname haliases => ?_⟩
    refine ⟨_, fromResource_wrapped type.toCodec wrapper nameField _ version
      (is_pack_resource wrapper r), ?_, rfl⟩
    rw [hfill]
    refine ⟨?_, ?_, rfl, ?_⟩
    · simpa [ofWrapper, hr] using hmessage
    · rw [hname] at hrname ⊢
      exact hrname.elim id id
    · simp [ofWrapper, hr]

end Agreement

def routeType : ResourceType RouteConfiguration where
  toCodec := routeCodec
  fullName := "envoy.config.route.v3.RouteConfiguration"
  stringField route field := if field = "name" then route.name else ""
  bare route := by
    rw [is_pack]
    decide

/-- A route table named 80 comes back without its name, an unnamed one without its alias. -/
theorem route_loses_name_and_aliases :
    ¬ DecodesAlike routeType resourceCodec "name" ⟨"80"⟩ [] "1" ∧
      ¬ DecodesAlike routeType resourceCodec "name" ⟨""⟩ ["web"] "1" := by
  constructor
  · intro h
    exact absurd h.name_eq (by decide)
  · intro h
    exact absurd h.aliases_eq (by decide)

section Rejection
variable {M : Type} (codec : Codec M) (wrapper : Codec Resource)

def MalformedResource (any : Any) : Prop := any.typeUrl ≠ "" ∧ codec.parse any.value = none

/-- The wrapper does not parse, or the resource in it does not, or a bare resource does not. -/
def Malformed (any : Any) : Prop :=
  if is any resourceFullName then
    wrapper.parse any.value = none ∨
      ∃ r inner, wrapper.parse any.value = some r ∧ r.resource = some inner ∧
        codec.parse inner.value = none
  else MalformedResource codec any

/-- An error for malformed input, and an object for all other input. -/
def Rejects {α : Type} (outcome : Except EnvoyException α) (malformed : Prop) : Prop :=
  (malformed → ∃ e, outcome = .error e) ∧ (¬ malformed → ∃ a, outcome = .ok a)

/-- An outcome that is an object whatever the input is right for well-formed input only. -/
theorem rejects_ok_iff {α : Type} (a : α) (malformed : Prop) :
    Rejects (.ok a) malformed ↔ ¬ malformed := by
  constructor
  · rintro ⟨herror, -⟩ hmalformed
    obtain ⟨e, he⟩ := herror hmalformed
    cases he
  · intro h
    exact ⟨fun hmalformed => absurd hmalformed h, fun _ => ⟨a, rfl⟩⟩

/-- Both functions take malformed input for a resource, and reject nothing. -/
theorem malformed_rejected_iff (nameField : String) (any : Any) (version : String) :
    (Rejects (decodeResource codec any).outcome (MalformedResource codec any) ↔
        ¬ MalformedResource codec any) ∧
      (Rejects (DecodedResource.fromResource (opaqueResourceDecoderImpl codec nameField) wrapper
          any version).outcome (Malformed codec wrapper any) ↔ ¬ Malformed codec wrapper any) := by
  constructor
  · rw [decodeResource_outcome]
    exact rejects_ok_iff _ _
  · obtain ⟨d, hd⟩ := fromResource_returns codec wrapper nameField any version
    rw [hd]
    exact rejects_ok_iff _ _

end Rejection

/-- A route table cut off after its first byte. -/
def truncatedRoute : Any := ⟨"type.googleapis.com/envoy.config.route.v3.RouteConfiguration", [0x0A]⟩

/-- The bytes of the cut table do not parse, and both functions return an empty table. -/
theorem truncated_route_accepted :
    MalformedResource routeCodec truncatedRoute ∧
      ¬ Rejects (decodeResource routeCodec truncatedRoute).outcome
        (MalformedResource routeCodec truncatedRoute) ∧
      ¬ Rejects (DecodedResource.fromResource (opaqueResourceDecoderImpl routeCodec "name")
        resourceCodec truncatedRoute "1").outcome
        (Malformed routeCodec resourceCodec truncatedRoute) := by
  have hparse : routeCodec.parse truncatedRoute.value = none := by decide
  have hbare : is truncatedRoute resourceFullName = false := by decide
  have hresource : MalformedResource routeCodec truncatedRoute := ⟨by decide, hparse⟩
  have hmalformed : Malformed routeCodec resourceCodec truncatedRoute := by
    simpa [Malformed, hbare] using hresource
  refine ⟨hresource, ?_, ?_⟩
  · rw [decodeResource_outcome, rejects_ok_iff, not_not]
    exact hresource
  · rw [fromResource_bare _ _ _ _ _ hbare, rejects_ok_iff, not_not]
    exact hmalformed

end XdsClient.Resources
