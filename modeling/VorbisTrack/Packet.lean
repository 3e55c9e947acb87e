import VorbisTrack.Bytes
import VorbisTrack.SampleFormat
import VorbisTrack.Timestamp

/-!
# Packets
-/

set_option autoImplicit false

namespace VorbisTrack

structure Packet where
  stream : Nat
  media : MediaType := .unknown
  data : Bytes
  pts : Timestamp := .unknown
  dts : Timestamp := .unknown
  duration : Int64 := 0
  /-- The packet can be decoded without earlier ones. -/
  isKey : Bool := false
  /-- The packet holds configuration. -/
  isConfig : Bool := false

namespace Packet

def ofData (stream : Nat) (data : Bytes) : Packet :=
  { stream, data }

def audio (stream : Nat) (data : Bytes) : Packet :=
  { stream, data, media := .audio }

/-- The packet with this time of presentation and of decoding. -/
def stamped (packet : Packet) (time : Timestamp) : Packet :=
  { packet with pts := time, dts := time }

def size (packet : Packet) : Nat :=
  packet.data.length

def text (packet : Packet) : String :=
  let key := if packet.isKey then "true" else "false"
  s!"Packet(stream={packet.stream}, size={packet.size}, pts={packet.pts.text}, " ++
    s!"dur={packet.duration.toInt}, key={key})"

end Packet

end VorbisTrack
