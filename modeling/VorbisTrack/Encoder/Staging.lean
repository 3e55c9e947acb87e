import VorbisTrack.Session

/-!
# Staged packets

Packets wait in a queue until the caller takes them. The queue has a budget of bytes, and every
packet costs its header on top of its data. Once the budget is reached no further block is wanted;
the packets of the block in progress are still taken in.
-/

set_option autoImplicit false

namespace VorbisTrack

/-- A queue of packets and the bytes it is charged with. -/
structure Staging where
  packets : List RawPacket := []
  bytes : Nat := 0

namespace Staging

/-- Bytes that a packet costs besides its data. -/
def headerSize : Nat := 48

def budget : Nat := 64 * 1024

def cost (packet : RawPacket) : Nat :=
  headerSize + packet.data.length

def push (packet : RawPacket) (s : Staging) : Staging :=
  { packets := s.packets ++ [packet], bytes := s.bytes + cost packet }

def isFull (s : Staging) : Bool :=
  budget ≤ s.bytes

def pop? (s : Staging) : Option (RawPacket × Staging) :=
  match s.packets with
  | [] => none
  | packet :: rest => some (packet, { packets := rest, bytes := s.bytes - cost packet })

/-- Packets are staged until the budget is used up. -/
def sink : Sink Staging where
  put := push
  wantsMore s := !s.isFull

end Staging

end VorbisTrack
