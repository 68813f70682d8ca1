import EncryptedTransfer.ServerFootprints
import EncryptedTransfer.ThreadPools

/-!
# The threads of the server

`open_server` starts a thread for each connection, and every thread runs `session` over the
same stores.
-/
namespace EncryptedTransfer.ServerThreads
open ByteFormats ServerStores ServerCalls ServerHandlers ServerFootprints Interaction Program

/-- One turn of the loop of `session`; `false` leaves the loop. -/
def sessionTurn (E : Externals) : Proc Bool := do
  match ← receiveRequest with
  | some (request, payload) =>
    handleRequest E request payload
    pure true
  | none => pure false

/-- What the surroundings decide at one call: the draws, what a read returns, and whether a
write succeeds. -/
structure Input where
  env : Draws
  data : Except PyError Bytes
  sent : Except PyError Unit

variable {δ : Type}

/-- The stores are shared; a connection may bring any bytes, and may fail. -/
def shared [FileSystem δ] (E : Externals) (x : Input) : Program.Machine calls PyError (Server δ)
  | .recv n, s => (x.data.map (fun data => data.take n), s)
  | .send _, s => (x.sent, s)
  | .host c, s => hostCall E x.env c s

def AnyKind (c : HostCall) : Prop := ∃ kind, Footprint kind c

end EncryptedTransfer.ServerThreads
