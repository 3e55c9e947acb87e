/-!
# Powers

Natural and whole numbers have their powers from the core library. With Mathlib there is a second
instance, equal to the first but not the same term. The first is preferred throughout, so that a
power here is one term whatever else is imported.
-/

set_option autoImplicit false

namespace VorbisTrack

@[default_instance 20000]
instance (priority := high) powNat : Pow Nat Nat := instPowNat

@[default_instance 20000]
instance (priority := high) powInt : Pow Int Nat := instPowNat

end VorbisTrack
