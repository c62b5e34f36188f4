import Paho.Protocol.Send

/-!
# Closing a connection

What happens to the session when its connection is closed, deliberately or after an error.
-/

namespace Paho

namespace MQTTAsync

/-- `MQTTAsync_closeOnly`: close the socket and keep the session. Whether a DISCONNECT can
still be written does not matter to the session. -/
def closeOnly (c : Clients) : Clients :=
  { c with
    good := false
    connected := false
    net := { c.net with pendingWrites := false } }

/-- `MQTTAsync_cleanSession`. -/
def cleanSession (c : Clients) : Clients :=
  { MQTTPersistence.unpersistInflightMessages c with
    inboundMsgs := []
    outboundMsgs := []
    msgID := 0
    trace := .sessionCleaned :: c.trace }

/-- `MQTTAsync_closeSession`. -/
def closeSession (c : Clients) : Clients :=
  let c := closeOnly c
  if c.cleansession || (decide (mqttVersion5 ≤ c.mqttVersion) && c.sessionExpiry == 0) then
    cleanSession c
  else c

/-- `nextOrClose`: the session is kept while another server URI is left to try. -/
def nextOrClose (c : Clients) : Clients :=
  if c.moreToTry then closeOnly c else closeSession c

end MQTTAsync

namespace MQTTProtocol

/-- `MQTTProtocol_closeSession`. -/
def closeSession (c : Clients) : Clients :=
  MQTTAsync.nextOrClose c

end MQTTProtocol

end Paho
