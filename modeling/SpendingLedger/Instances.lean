/-!
# Preferred instances

Powers of natural numbers and equality of byte arrays have a second instance in the libraries that
the proofs import. The program and its theory mean the first one everywhere.
-/

attribute [instance (2000), default_instance 20000] instPowNat
attribute [instance (2000)] ByteArray.instDecidableEq
