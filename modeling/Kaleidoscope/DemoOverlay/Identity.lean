import Kaleidoscope.Aegis.Validator
import Kaleidoscope.Library.StableSort

/-!
# The demo identity

The overlays answer for one tenant as if records of a demo were stored that are made up at the time
of a read.
-/

namespace Kaleidoscope.DemoOverlay

open Aegis StableSort

/-- `DEMO_TENANT`. -/
def demoTenant : TenantId := ⟨"acme"⟩

/-- `DEMO_SERVICE_NAME`. -/
def demoServiceName : String := "kaleidoscope-demo"

/-- `FAILED_CHECKOUT_TRACE_ID_BYTES`. -/
def failedCheckoutTraceId : Vector UInt8 16 :=
  #v[0x4b, 0xf9, 0x2f, 0x35, 0x77, 0xb3, 0x4d, 0xa6, 0xa3, 0xce, 0x92, 0x9d, 0x0e, 0x0e, 0x47, 0x36]

/-- `FAILED_CHECKOUT_SPAN_ID_BYTES`. -/
def failedCheckoutSpanId : Vector UInt8 8 := #v[0x00, 0xf0, 0x67, 0xaa, 0x0b, 0xa9, 0x02, 0xb8]

/-- `FAILED_CHECKOUT_ERROR_MESSAGE`. -/
def failedCheckoutErrorMessage : String := "checkout failed: card declined"

/-- `DEMO_CUSTOMER_ID_KEY`. -/
def demoCustomerIdKey : String := "customer.id"

/-- `FAILED_CHECKOUT_CUSTOMER_ID`. -/
def failedCheckoutCustomerId : String := "alice"

/-- `is_demo_tenant`. -/
def isDemoTenant (tenant : TenantId) : Bool := tenant = demoTenant

theorem isDemoTenant_iff {tenant : TenantId} : isDemoTenant tenant = true ↔ tenant = demoTenant :=
  decide_eq_true_iff

/-- A read of an overlay: the short-circuit unless the demo is asked for, or else the answer of the
store, extended and sorted. -/
def extend {V E : Type} (key : V → Nat) (demo : Bool) (answer : Except E (List V))
    (synthesized : List V) : Except E (List V) :=
  if !demo then answer
  else do
    let records ← answer
    return sortByKey key (records ++ synthesized)

theorem extend_ok {V E : Type} (key : V → Nat) (demo : Bool) (records synthesized : List V) :
    extend key demo (.ok records : Except E (List V)) synthesized =
      .ok (if demo then sortByKey key (records ++ synthesized) else records) := by
  cases demo <;> rfl

/-- An answer in the order of time may be sorted again. -/
theorem extend_sorted {V E : Type} (key : V → Nat) (demo : Bool) {records : List V}
    (h : records.Pairwise fun a b => key a ≤ key b) (synthesized : List V) :
    extend key demo (.ok records : Except E (List V)) synthesized =
      .ok (sortByKey key (records ++ if demo then synthesized else [])) := by
  rw [extend_ok]
  split_ifs
  · rfl
  · rw [List.append_nil, sortByKey_of_pairwise key h]

end Kaleidoscope.DemoOverlay
