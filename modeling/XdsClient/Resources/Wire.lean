import XdsClient.Resources.DecodedResource

/-! # The wire format of the messages around a resource

The field numbers are those of the `.proto` files. A field the message does not have is
skipped.
-/
namespace XdsClient.Resources
open Library Ads

def anyFields (any : Any) : List Field :=
  textField 1 any.typeUrl ++ if any.value = [] then [] else [(2, any.value)]

def assignAny (any : Any) : Field → Option Any
  | (1, payload) => (ofUtf8? payload).map fun typeUrl => { any with typeUrl := typeUrl }
  | (2, payload) => some { any with value := payload }
  | _ => some any

theorem foldlM_anyFields (any : Any) : (anyFields any).foldlM assignAny {} = some any := by
  obtain ⟨typeUrl, value⟩ := any
  by_cases ht : typeUrl = "" <;> by_cases hv : value = [] <;>
    simp [anyFields, textField, assignAny, ht, hv]

def anyCodec : Codec Any := .ofFields assignAny {} anyFields foldlM_anyFields

def resourceFields (r : Resource) : List Field :=
  textField 1 r.version ++ (r.resource.toList.map fun any => (2, anyCodec.serialize any)) ++
    textField 3 r.name ++ r.aliases.map fun other => (4, utf8 other)

def assignResource (r : Resource) : Field → Option Resource
  | (1, payload) => (ofUtf8? payload).map fun version => { r with version := version }
  | (2, payload) => (anyCodec.parse payload).map fun any => { r with resource := some any }
  | (3, payload) => (ofUtf8? payload).map fun name => { r with name := name }
  | (4, payload) => (ofUtf8? payload).map fun other => { r with aliases := r.aliases ++ [other] }
  | _ => some r

theorem foldlM_aliases (aliases : List String) (r : Resource) :
    (aliases.map fun other => (4, utf8 other)).foldlM assignResource r =
      some { r with aliases := r.aliases ++ aliases } := by
  induction aliases generalizing r with
  | nil => simp
  | cons other aliases ih => simp [assignResource, ih]

theorem foldlM_resourceFields (r : Resource) :
    (resourceFields r).foldlM assignResource {} = some r := by
  obtain ⟨name, aliases, version, resource⟩ := r
  by_cases hv : version = "" <;> by_cases hn : name = "" <;> cases resource <;>
    simp [resourceFields, textField, assignResource, anyCodec.parse_serialize, foldlM_aliases,
      hv, hn]

def resourceCodec : Codec Resource := .ofFields assignResource {} resourceFields foldlM_resourceFields

/-- `envoy.config.route.v3.RouteConfiguration`, of which only the name is kept. -/
structure RouteConfiguration where
  name : String := ""
  deriving DecidableEq, Repr

def routeFields (route : RouteConfiguration) : List Field := textField 1 route.name

def assignRoute (route : RouteConfiguration) : Field → Option RouteConfiguration
  | (1, payload) => (ofUtf8? payload).map fun name => { route with name := name }
  | _ => some route

theorem foldlM_routeFields (route : RouteConfiguration) :
    (routeFields route).foldlM assignRoute {} = some route := by
  obtain ⟨name⟩ := route
  by_cases hn : name = "" <;> simp [routeFields, textField, assignRoute, hn]

def routeCodec : Codec RouteConfiguration := .ofFields assignRoute {} routeFields foldlM_routeFields

end XdsClient.Resources
