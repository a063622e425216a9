import Mathlib.Tactic

/-! # Messages of the aggregated discovery service

The fields of the protobuf messages that the client reads or writes. A scalar
field that is not set holds its default value, a message field is optional and a
repeated field is a list. Strings stand for type URLs, versions and nonces as
they do on the wire.
-/
namespace XdsClient.Ads

structure Any where
  typeUrl : String := ""
  value : List UInt8 := []
  deriving DecidableEq, Repr

structure Status where
  code : Int := 0
  message : String := ""
  deriving DecidableEq, Repr

/-- `google.protobuf.Value`; the client only ever fills the string alternative. -/
inductive Value where
  | stringValue (value : String)
  deriving DecidableEq, Repr

structure Struct where
  fields : List (String × Value) := []
  deriving DecidableEq, Repr

/-- The map's `insert`: a key that is present keeps its value. -/
def Struct.insert (struct : Struct) (key : String) (value : Value) : Struct :=
  if (struct.fields.map Prod.fst).contains key then struct
  else { struct with fields := struct.fields ++ [(key, value)] }

/-- `envoy.config.core.v3.Node`. -/
structure Node where
  id : String := ""
  cluster : String := ""
  metadata : Option Struct := none
  userAgentName : String := ""
  deriving DecidableEq, Repr

def buildStruct (keyValue : List (String × String)) : Struct :=
  keyValue.foldl (fun struct item => struct.insert item.1 (.stringValue item.2)) {}

/-- `AdsClient::node`: the identity every stream is opened with. -/
def node : Node where
  id := "" ++ "test-id"
  cluster := "" ++ "test-cluster"
  metadata := some (buildStruct [("test", "data1")])

structure DiscoveryRequest where
  versionInfo : String := ""
  node : Option Node := none
  resourceNames : List String := []
  typeUrl : String := ""
  responseNonce : String := ""
  errorDetail : Option Status := none
  deriving DecidableEq, Repr

structure DiscoveryResponse where
  versionInfo : String := ""
  resources : List Any := []
  typeUrl : String := ""
  nonce : String := ""
  deriving DecidableEq, Repr

/-- The type that both constructors of the client put first in `subscriptions_`. -/
def clusterTypeUrl : String := "type.googleapis.com/envoy.config.cluster.v3.Cluster"

/-- A response with one resource for the type every client subscribes to. -/
def clusterPush : DiscoveryResponse where
  versionInfo := "1"
  resources := [{}]
  typeUrl := clusterTypeUrl
  nonce := "n1"

end XdsClient.Ads
