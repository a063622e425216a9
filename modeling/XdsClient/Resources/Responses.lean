import XdsClient.Resources.Decoding

/-! # The resources of a whole response

`fromResource` is called for one resource after the other. Each call gives one object and
reports on the console each layer of its resource that does not parse; the calls have nothing
else in common, so that a response made of packed messages comes back entry by entry.
-/
namespace XdsClient.Resources
open Library Ads

section Calls
variable {M : Type} (codec : Codec M) (wrapper : Codec Resource) (nameField : String)
  (version : String)

def received (any : Any) : DecodedResource M :=
  if is any resourceFullName then ofWrapper codec (wrapper.fill any.value) version
  else ofBare codec any version

def reported (any : Any) : List String :=
  if is any resourceFullName then
    complaints wrapper any.value ++ (decoded codec ((wrapper.fill any.value).resource.getD {})).2
  else (decoded codec any).2

/-- `fromResource` of each resource, in order. -/
def fromResources (resources : List Any) : Decoding (List (DecodedResource M)) :=
  resources.mapM fun any =>
    DecodedResource.fromResource (opaqueResourceDecoderImpl codec nameField) wrapper any version

theorem fromResource_run (any : Any) (printed : List String) :
    (DecodedResource.fromResource (opaqueResourceDecoderImpl codec nameField) wrapper any
      version).run printed =
      .ok (received codec wrapper version any, printed ++ reported codec wrapper any) := by
  cases h : is any resourceFullName with
  | false =>
    simp only [DecodedResource.fromResource, received, reported, h, Bool.false_eq_true, if_false,
      construct_run]
    rfl
  | true =>
    simp only [DecodedResource.fromResource, received, reported, h, if_true, StateT.run_bind,
      unpackToOrThrow_run]
    simp only [bind, Except.bind, DecodedResource.ofResource, construct_run, List.append_assoc]
    rfl

theorem fromResources_run (resources : List Any) (printed : List String) :
    (fromResources codec wrapper nameField version resources).run printed =
      .ok (resources.map (received codec wrapper version),
        printed ++ resources.flatMap (reported codec wrapper)) := by
  induction resources generalizing printed with
  | nil =>
    rw [fromResources, List.mapM_nil, List.flatMap_nil, List.append_nil]
    rfl
  | cons any resources ih =>
    rw [fromResources] at ih ⊢
    have hok {α β : Type} (a : α) (f : α → Except EnvoyException β) : (.ok a >>= f) = f a := rfl
    rw [List.mapM_cons, StateT.run_bind, fromResource_run, hok, StateT.run_bind, ih, hok,
      List.flatMap_cons, ← List.append_assoc]
    rfl

/-- Every layer of the resource that is decoded parses. A wrapped resource without a type URL is
not decoded. -/
def WellFormed (any : Any) : Prop :=
  if is any resourceFullName then
    ∃ r, wrapper.parse any.value = some r ∧ ∀ inner, r.resource = some inner →
      ¬ MalformedResource codec inner
  else ¬ MalformedResource codec any

theorem complaints_eq_nil_iff {N : Type} (codec : Codec N) (bytes : List UInt8) :
    complaints codec bytes = [] ↔ codec.parse bytes ≠ none := by
  cases h : codec.parse bytes <;> simp [complaints, h]

theorem decoded_silent_iff (any : Any) :
    (decoded codec any).2 = [] ↔ ¬ MalformedResource codec any := by
  unfold decoded MalformedResource
  split_ifs with h
  · simp [h, complaints_eq_nil_iff]
  · simp [not_not.mp h]

theorem reported_eq_nil_iff (any : Any) :
    reported codec wrapper any = [] ↔ WellFormed codec wrapper any := by
  unfold reported WellFormed
  split_ifs with h
  · rw [List.append_eq_nil_iff, complaints_eq_nil_iff, decoded_silent_iff]
    cases hparse : wrapper.parse any.value with
    | none => simp
    | some r =>
      rw [wrapper.fill_of_parse _ hparse]
      cases hinner : r.resource with
      | none => simp [hinner, MalformedResource]
      | some inner => simp [hinner]
  · exact decoded_silent_iff codec any

theorem reported_lines (any : Any) : (∀ line ∈ reported codec wrapper any, line = "failed to parsed") ∧
    (reported codec wrapper any).length ≤ if is any resourceFullName then 2 else 1 := by
  have hcomplaints {N : Type} (codec : Codec N) (bytes : List UInt8) :
      complaints codec bytes = [] ∨ complaints codec bytes = ["failed to parsed"] := by
    unfold complaints
    split_ifs <;> simp
  have hdecoded (any : Any) : (decoded codec any).2 = [] ∨
      (decoded codec any).2 = ["failed to parsed"] := by
    unfold decoded
    split_ifs
    · exact hcomplaints codec any.value
    · exact Or.inl rfl
  unfold reported
  split_ifs
  · rcases hcomplaints wrapper any.value with houter | houter <;>
      rcases hdecoded ((wrapper.fill any.value).resource.getD {}) with hinner | hinner <;>
      simp [houter, hinner]
  · rcases hdecoded any with h | h <;> simp [h]

/-- What comes of one resource: the object and the lines of a call of `fromResource` for it
alone, in the version of the response and without aliases. Nothing is printed exactly when every
layer that is decoded parses, and never more than the one line for each layer. -/
structure Reports (any : Any) (result : DecodedResource M × List String) : Prop where
  alone : (DecodedResource.fromResource (opaqueResourceDecoderImpl codec nameField) wrapper any
    version).run [] = .ok result
  version : result.1.version = version
  aliases : result.1.aliases = []
  silent : result.2 = [] ↔ WellFormed codec wrapper any
  lines : ∀ line ∈ result.2, line = "failed to parsed"
  layers : result.2.length ≤ if is any resourceFullName then 2 else 1

theorem reports_received (any : Any) : Reports codec wrapper nameField version any
    (received codec wrapper version any, reported codec wrapper any) where
  alone := fromResource_run codec wrapper nameField version any []
  version := by
    unfold received
    split_ifs <;> rfl
  aliases := by
    unfold received
    split_ifs <;> rfl
  silent := reported_eq_nil_iff codec wrapper any
  lines := (reported_lines codec wrapper any).1
  layers := (reported_lines codec wrapper any).2

/-- Whatever the resources of a response are, each has a result in its place, the one of a call
for it alone: the objects of these results are returned and their lines are printed, in the order
of the response. -/
theorem response_reports (resources : List Any) :
    ∃ results : List (DecodedResource M × List String),
      (fromResources codec wrapper nameField version resources).run [] =
        .ok (results.map Prod.fst, results.flatMap Prod.snd) ∧
      List.Forall₂ (Reports codec wrapper nameField version) resources results := by
  refine ⟨resources.map fun any =>
    (received codec wrapper version any, reported codec wrapper any), ?_, ?_⟩
  · rw [fromResources_run, List.nil_append, List.map_map, List.flatMap_map]
    rfl
  · rw [List.forall₂_map_right_iff, List.forall₂_same]
    exact fun any _ => reports_received codec wrapper nameField version any

end Calls

/-! ## A response that was packed -/

/-- An entry of a response: a message alone, or in a wrapper of this name. -/
structure Entry (M : Type) where
  message : M
  wrapping : Option Resource := none

section Packed
variable {M : Type} (type : ResourceType M) (wrapper : Codec Resource) (nameField : String)
  (version : String)

def Entry.packed (entry : Entry M) : Any :=
  match entry.wrapping with
  | some r => pack (resourceType wrapper)
      { r with resource := some (pack type.toMessageType entry.message) }
  | none => pack type.toMessageType entry.message

/-- The entry as it is received: of the wrapper only the name comes through. -/
def Entry.shown (entry : Entry M) : DecodedResource M where
  resource := entry.message
  hasResource := true
  name := (entry.wrapping.map Resource.name).getD ""
  aliases := []
  version := version

theorem decoded_pack_silent (message : M) :
    (decoded type.toCodec (pack type.toMessageType message)).2 = [] := by
  rw [decoded_silent_iff]
  rintro ⟨-, hparse⟩
  have hsome : type.parse (pack type.toMessageType message).value = some message :=
    type.parse_serialize message
  rw [hsome] at hparse
  cases hparse

theorem received_bare (message : M) :
    received type.toCodec wrapper version (pack type.toMessageType message) =
        ⟨message, true, "", [], version⟩ ∧
      reported type.toCodec wrapper (pack type.toMessageType message) = [] := by
  have hbare : ¬ is (pack type.toMessageType message) resourceFullName = true := by
    rw [type.bare message]
    exact Bool.false_ne_true
  rw [received, reported, if_neg hbare, if_neg hbare, ofBare, decoded_pack]
  exact ⟨rfl, decoded_pack_silent type message⟩

theorem received_wrapped {r : Resource} {message : M}
    (hr : r.resource = some (pack type.toMessageType message)) :
    received type.toCodec wrapper version (pack (resourceType wrapper) r) =
        ⟨message, true, r.name, [], version⟩ ∧
      reported type.toCodec wrapper (pack (resourceType wrapper) r) = [] := by
  have hwrapped := is_pack_resource wrapper r
  have hparse : wrapper.parse (pack (resourceType wrapper) r).value = some r :=
    wrapper.parse_serialize r
  rw [received, reported, if_pos hwrapped, if_pos hwrapped, wrapper.fill_of_parse _ hparse,
    ofWrapper, hr, Option.getD_some, decoded_pack, decoded_pack_silent, List.append_nil,
    complaints_eq_nil_iff, hparse]
  exact ⟨rfl, Option.some_ne_none r⟩

theorem received_packed (entry : Entry M) :
    received type.toCodec wrapper version (entry.packed type wrapper) = entry.shown version ∧
      reported type.toCodec wrapper (entry.packed type wrapper) = [] := by
  obtain ⟨message, wrapping⟩ := entry
  cases wrapping with
  | none => exact received_bare type wrapper version message
  | some r => exact received_wrapped type wrapper version rfl

/-- What a server packs comes back, entry by entry and without a line on the console: every
message, under the name of its wrapper, in the version of the response. -/
theorem response_round_trip (entries : List (Entry M)) :
    (fromResources type.toCodec wrapper nameField version
        (entries.map (Entry.packed type wrapper))).run [] =
      .ok (entries.map (Entry.shown version), []) := by
  have hsilent : (entries.map (Entry.packed type wrapper)).flatMap (reported type.toCodec wrapper) =
      [] := by
    rw [List.flatMap_eq_nil_iff]
    intro any hany
    obtain ⟨entry, -, rfl⟩ := List.mem_map.mp hany
    exact (received_packed type wrapper version entry).2
  have hshown (entry : Entry M) := (received_packed type wrapper version entry).1
  rw [fromResources_run, hsilent, List.map_map]
  simp [Function.comp_def, hshown]

end Packed
end XdsClient.Resources
