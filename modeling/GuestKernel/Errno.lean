namespace GuestKernel

/-!
# Error codes

The negative return values of the kernel sources.  `host` is any other code
that `errno_map` hands through from the host.
-/

/-- Error codes the modelled functions return. -/
inductive Errno where
  | noent
  | intr
  | badf
  | again
  | nomem
  | acces
  | fault
  | nodev
  | notdir
  | inval
  | nametoolong
  | loop
  | perm
  | mfile
  | srch
  | busy
  | timedout
  | exist
  | isdir
  | notempty
  | overflow
  | spipe
  | nxio
  | child
  | io
  | host (code : Nat)
  deriving Repr, DecidableEq

end GuestKernel
