import HubRelay.Exchange.State

/-!
Endpoints come and go.

An endpoint that goes takes its slots with it, and whoever waits for one of its responses is
released. The exchange itself holds the handle `Echo.handle` when it is set up to echo.
-/

namespace HubRelay

namespace Echo

/-- The handle of the echoing endpoint and of its probe. -/
def handle : Handle := 1

/-- The identifier of the echoing endpoint and of its probe. -/
def uuid : Uuid := Uuid.ofNat 0x6c6f6f706261636b0000000000000001

def command : Command := 0

def version : Version := ⟨1, 0, 0⟩

def serviceDescriptor : Descriptor :=
  { role := .service, uuid, version, name := some "loopback", commands := 1 }

def probeDescriptor : Descriptor := { role := .client, uuid, version, commands := 1 }

end Echo

namespace Exchange

def register (x : Exchange) (descriptor : Descriptor) (endpoint : Endpoint) :
    Exchange × Except ExchangeError Handle :=
  match x.directory.register descriptor endpoint with
  | .ok (handle, directory) => ({ x with directory }, .ok handle)
  | .error error => (x, .error error)

def registerAt (x : Exchange) (handle : Handle) (descriptor : Descriptor) (endpoint : Endpoint) :
    Exchange × Except ExchangeError Handle :=
  match x.directory.registerAt handle descriptor endpoint with
  | .ok (handle, directory) => ({ x with directory }, .ok handle)
  | .error error => (x, .error error)

/-- Removes an endpoint with its slots, and releases the callers that wait for it. An operation that
is under way on its behalf is not told and goes on. -/
def unregister (x : Exchange) (handle : Handle) : Exchange × Bool :=
  match x.directory.unregister handle with
  | none => (x, false)
  | some (_, directory) =>
      ({ x with
          directory
          ledger := x.ledger.removeEndpoint handle
          awaited := x.awaited.releaseEndpoint handle }, true)

/-- A fresh exchange; it holds the echoing endpoint if the settings ask for it. The handle of that
endpoint is free in a fresh directory, so this cannot fail. -/
def ofSettings (settings : Settings) : Exchange :=
  let x : Exchange := { settings, directory := .ofCapacity settings.maxEndpoints }
  if settings.echo then (x.registerAt Echo.handle Echo.serviceDescriptor .echo).1 else x

/-- Registers the probe of the peer's echoing endpoint. -/
def registerProbe (x : Exchange) : Exchange × Except ExchangeError Handle :=
  x.registerAt Echo.handle Echo.probeDescriptor .probe

end Exchange

end HubRelay
