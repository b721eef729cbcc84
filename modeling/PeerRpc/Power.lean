/-!
# PeerRpc.Power -- powers of numbers

A power of numbers is the one that is computed by multiplying. Libraries that are imported beside
this one know powers in more general ways, which give the same numbers; the instances here see to it
that `2 ^ n` is the same term everywhere.
-/

namespace PeerRpc

@[default_instance high]
instance (priority := high) intPow : Pow Int Nat := instPowNat

@[default_instance high]
instance (priority := high) natPow : Pow Nat Nat := instPowNat

end PeerRpc
