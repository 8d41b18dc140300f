import DidMethods.Sidetree.InitialState

/-!
# The ion method

A `did:ion` is named by the suffix of the request that creates it, after the network it lives in.
Its short form says no more (`IonMethod.shortForm`) and is resolved by a gateway once the request
has been anchored; its long form (`IonMethod.longForm`) carries the initial state as one more
segment.

`IonMethod` is a configuration of the method: a gateway and a network.
-/

namespace DidMethods

/-- How the method is configured. -/
structure IonMethod where
  /-- The URI of the gateway, without slashes at its end. -/
  gateway : String
  /-- The network, if it is not the main one. -/
  network : Option String := none
deriving DecidableEq, Repr

namespace IonMethod

/-- The name of the method. -/
def name : String := "ion"

/-- The gateway that is used unless another one is configured. -/
def defaultGateway : String := "https://ion.tbd.engineering"

/-- The URI of a gateway without slashes at its end. -/
def trimGateway (uri : String) : String :=
  String.ofList (Text.trimEnd '/' uri.toList)

/-- The method with a gateway. -/
def ofGateway (uri : String) : IonMethod where
  gateway := trimGateway uri

/-- The method with the gateway that is used unless another one is configured. -/
def standard : IonMethod :=
  ofGateway defaultGateway

/-- The method with the gateway that the environment variable names, if it is set. -/
def ofEnvironment (uri? : Option String) : IonMethod :=
  (uri?.map ofGateway).getD standard

/-- The method on a network. -/
def withNetwork (m : IonMethod) (network : String) : IonMethod :=
  { m with network := some network }

/-- The gateway to use, which may be named for one call only. -/
def gatewayFor (m : IonMethod) (gateway? : Option String) : String :=
  (gateway?.map trimGateway).getD m.gateway

/-! ### Identifiers -/

/-- What stands between the method and the suffix: nothing on the main network. -/
def networkSegment : Option String → String
  | none | some "" | some "mainnet" => ""
  | some network => network ++ ":"

/-- The short form of the DID that a request creates. -/
def shortForm (network : Option String) (r : Sidetree.CreateRequest) : String :=
  s!"did:{name}:{networkSegment network}{r.suffix}"

/-- The long form of the DID that a request creates. -/
def longForm (network : Option String) (r : Sidetree.CreateRequest) : String :=
  s!"{shortForm network r}:{(Sidetree.InitialState.ofRequest r).encode}"

/-- The request that creates a DID with these keys and services. -/
def request (recovery update : Jwk) (keys : List Sidetree.KeyInput) (services : List Service) :
    Outcome Sidetree.CreateRequest := do
  Service.checkAll services
  let state ← Sidetree.State.ofInputs keys services
  Sidetree.CreateRequest.new recovery update state

/-- The short form of the DID with these keys and services. -/
def shortFormDid (m : IonMethod) (recovery update : Jwk) (keys : List Sidetree.KeyInput)
    (services : List Service) : Outcome String :=
  (request recovery update keys services).map (shortForm m.network)

/-- The long form of the DID with these keys and services. -/
def longFormDid (m : IonMethod) (recovery update : Jwk) (keys : List Sidetree.KeyInput)
    (services : List Service) : Outcome String :=
  (request recovery update keys services).map (longForm m.network)

end IonMethod

end DidMethods
