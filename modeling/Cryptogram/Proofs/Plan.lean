import Mathlib.Tactic.Ring
import Cryptogram.Cipher.Stream
import Cryptogram.Plan
import Cryptogram.Text.Utf8

/-!
# Plans with one secret

`Plan.Keeps` are the plans whose key comes from a raw key or from a password.
-/

namespace Cryptogram

theorem Method.keyed_of_passwordBased {method : Method} (h : method.passwordBased = true) :
    method.keyed = false := by
  unfold Method.passwordBased at h
  simpa using (Bool.and_eq_true_iff.1 h).1

theorem Method.isOpenPgp_of_passwordBased {method : Method} (h : method.passwordBased = true) :
    method.isOpenPgp = false := by
  unfold Method.passwordBased at h
  simpa using (Bool.and_eq_true_iff.1 h).2

theorem Method.isOpenPgp_of_keyed {method : Method} (h : method.keyed = true) :
    method.isOpenPgp = false := by
  cases method <;> first
    | rfl
    | exact absurd h (by decide)

theorem Method.keyed_of_openPgp {method : Method} (h : method.isOpenPgp = true) :
    method.keyed = false := by
  cases method <;> first
    | rfl
    | exact absurd h (by decide)

end Cryptogram
