/-
# Platform.Write — `write_full`, and the errors of the platform

`write_full` of `otp-platform` loops over short writes and interruptions until everything is
written or a write fails. What the file got of the data by then is a prefix of it, and all of
it where the call returns `Ok` (`writeFull_front`, `writeFull_of_ok`).
-/
import Jbuu.Types

namespace Jbuu

set_option autoImplicit false

open Jbuu.Library.BigEndian (Bytes)

inductive PlatformError where
  | lockUnsupported
  | lockHeld
  | fsyncUncertain
  | unsupportedFilesystem (fsName : String)
  | io
  | noSpace
  | writeZero
  | invalidData
  | injectedIo
  | crashInjected
  | mlockFailed
  deriving DecidableEq, Repr

/-- What one `write_some` comes back with. -/
inductive WriteSome where
  | wrote (n : Nat)
  | interrupted
  | failed (error : PlatformError)
  deriving DecidableEq, Repr

/-- `write_full`, and what of the data was written. The rest goes out whole where the answers
end. -/
def writeFull : List WriteSome → Bytes → Except PlatformError Unit × Bytes
  | _, [] => (.ok (), [])
  | [], data => (.ok (), data)
  | .interrupted :: rest, data => writeFull rest data
  | .failed error :: _, _ => (.error error, [])
  | .wrote n :: rest, data =>
      if n = 0 then (.error .writeZero, [])
      else if n ≤ data.length then
        ((writeFull rest (data.drop n)).1, data.take n ++ (writeFull rest (data.drop n)).2)
      else (.error .io, data)

theorem writeFull_front (answers : List WriteSome) (data : Bytes) : (writeFull answers data).2 <+: data := by
  fun_induction writeFull answers data with
  | case1 => exact List.prefix_rfl
  | case2 => exact List.prefix_rfl
  | case3 rest data _ ih => exact ih
  | case4 => exact List.nil_prefix
  | case5 => exact List.nil_prefix
  | case6 n rest data _ _ _ ih =>
      have whole := (List.prefix_append_right_inj (data.take n)).mpr ih
      rwa [List.take_append_drop] at whole
  | case7 => exact List.prefix_rfl

theorem writeFull_of_ok {answers : List WriteSome} {data : Bytes} (ok : (writeFull answers data).1 = .ok ()) :
    (writeFull answers data).2 = data := by
  fun_induction writeFull answers data with
  | case1 => rfl
  | case2 => rfl
  | case3 rest data _ ih => exact ih ok
  | case4 => nomatch ok
  | case5 => nomatch ok
  | case6 n rest data _ _ _ ih => rw [ih ok, List.take_append_drop]
  | case7 => nomatch ok

end Jbuu
