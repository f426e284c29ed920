import Mprtp.Basic
import Mprtp.Lib.Rescale
import Mprtp.Lib.Wrap
import Mathlib.Tactic.FieldSimp
import Mathlib.Tactic.Linarith

/-! Times cut to seconds and microseconds, and to NTP words and back. -/
namespace Mprtp

/-- `rtp_time::rtp_time(int64_t, uint32_t)`. -/
def rtpTimeOf (seconds : ℤ) (microseconds : UInt32) : RtpTime :=
  if 0 ≤ seconds then (seconds : ℚ) + 1 / 1000000 * microseconds.toNat
  else -(((-seconds : ℤ) : ℚ) + 1 / 1000000 * microseconds.toNat)

/-- `rtp_time::rtp_time(rtp_ntp_time)`. -/
def ofNtpTime (ntptime : RtpNtpTime) : RtpTime :=
  if ntptime.msw < rtpNtpTimeOffset then 0
  else
    let sec := ntptime.msw - rtpNtpTimeOffset
    let microsec := truncU32 ((ntptime.lsw.toNat : ℚ) / (65536 * 65536) * 1000000)
    (sec.toNat : ℚ) + 1 / 1000000 * microsec.toNat

/-- `rtp_time::get_microseconds`. -/
def getMicroseconds (t : RtpTime) : UInt32 :=
  let microsec :=
    if 0 ≤ t then truncU32 (1000000 * (t - getSeconds t) + 1 / 2)
    else truncU32 (1000000 * (-t - getSeconds (-t)) + 1 / 2)
  if 1000000 ≤ microsec then 999999 else microsec

theorem truncU32_div (n d : ℕ) : truncU32 ((n : ℚ) / d) = UInt32.ofNat (n / d) := by
  unfold truncU32
  rw [if_pos (by positivity), Rat.floor_natCast_div_natCast, ← Int.natCast_ediv,
    UInt32.ofInt_natCast]

theorem truncU32_natCast (n : ℕ) : truncU32 (n : ℚ) = UInt32.ofNat n := by
  simpa using truncU32_div n 1

/-- A time of whole microseconds, none of them a full second. -/
def timeAt (s m : ℕ) : RtpTime := (s : ℚ) + 1 / 1000000 * m

variable {s m : ℕ}

theorem timeAt_eq_div : timeAt s m = ((s * 1000000 + m : ℕ) : ℚ) / (1000000 : ℕ) := by
  unfold timeAt
  push_cast
  ring

theorem rtpTimeOf_natCast (hm : m < 2 ^ 32) : rtpTimeOf s (UInt32.ofNat m) = timeAt s m := by
  unfold rtpTimeOf timeAt
  rw [if_pos (Int.natCast_nonneg s), UInt32.toNat_ofNat_of_lt' hm, Int.cast_natCast]

theorem floor_timeAt (hm : m < 1000000) : ⌊timeAt s m⌋ = s := by
  rw [timeAt_eq_div, Rat.floor_natCast_div_natCast]
  omega

theorem timeAt_nonneg : 0 ≤ timeAt s m := by
  unfold timeAt
  positivity

theorem getSeconds_timeAt (hm : m < 1000000) : getSeconds (timeAt s m) = s := by
  rw [getSeconds, if_pos timeAt_nonneg, floor_timeAt hm]

/-- Reading the microseconds rounds, so that what was stored is read back. -/
theorem getMicroseconds_timeAt (hm : m < 1000000) :
    getMicroseconds (timeAt s m) = UInt32.ofNat m := by
  have hhalf : 1000000 * (timeAt s m - (s : ℤ)) + 1 / 2 = ((2 * m + 1 : ℕ) : ℚ) / (2 : ℕ) := by
    unfold timeAt
    push_cast
    ring
  have hround : truncU32 (1000000 * (timeAt s m - getSeconds (timeAt s m)) + 1 / 2) =
      UInt32.ofNat m := by
    rw [getSeconds_timeAt hm, hhalf, truncU32_div]
    congr 1
    omega
  unfold getMicroseconds
  simp only [if_pos timeAt_nonneg, hround]
  rw [if_neg]
  rw [UInt32.not_le, UInt32.lt_iff_toNat_lt, UInt32.toNat_ofNat_of_lt' (show _ < 2 ^ 32 by omega)]
  exact hm

/-- The seconds shift to the NTP epoch, the microseconds are cut to `2 ^ 32`-ths. -/
theorem getNtpTime_timeAt (hs : s < 2 ^ 32) (hm : m < 1000000) :
    getNtpTime (timeAt s m) =
      ⟨UInt32.ofNat s + rtpNtpTimeOffset, UInt32.ofNat (rescale 1000000 (2 ^ 32) m)⟩ := by
  have hsec : truncU32 (timeAt s m) = UInt32.ofNat s := by
    rw [truncU32, if_pos timeAt_nonneg, floor_timeAt hm, UInt32.ofInt_natCast]
  have hmicro : (timeAt s m - (s : ℚ)) * 1000000 = m := by
    unfold timeAt
    ring
  have hlsw : (m : ℚ) / 1000000 * (65536 * 65536) = ((m * 2 ^ 32 : ℕ) : ℚ) / (1000000 : ℕ) := by
    push_cast
    ring
  unfold getNtpTime
  simp only [hsec, UInt32.toNat_ofNat_of_lt' hs, hmicro, truncU32_natCast,
    UInt32.toNat_ofNat_of_lt' (show m < 2 ^ 32 by omega), hlsw,
    truncU32_div]
  rfl

theorem ofNtpTime_offset (hs : s < 2 ^ 32 - 2208988800) {lsw : ℕ} (hl : lsw < 2 ^ 32) :
    ofNtpTime ⟨UInt32.ofNat s + rtpNtpTimeOffset, UInt32.ofNat lsw⟩ =
      timeAt s (rescale (2 ^ 32) 1000000 lsw) := by
  have hsNat := UInt32.toNat_ofNat_of_lt' (show s < 2 ^ 32 by omega)
  have hmsw : (UInt32.ofNat s + rtpNtpTimeOffset).toNat = s + 2208988800 := by
    rw [UInt32.toNat_add, hsNat, show rtpNtpTimeOffset.toNat = 2208988800 from rfl]
    omega
  have hsec : UInt32.ofNat s + rtpNtpTimeOffset - rtpNtpTimeOffset = UInt32.ofNat s :=
    UInt32.add_sub_cancel _ _
  have hmicro : (lsw : ℚ) / (65536 * 65536) * 1000000 =
      ((lsw * 1000000 : ℕ) : ℚ) / ((2 ^ 32 : ℕ) : ℚ) := by
    push_cast
    ring
  have hcut : rescale (2 ^ 32) 1000000 lsw < 2 ^ 32 := by
    have h := rescale_lt (b := 1000000) hl
    omega
  unfold ofNtpTime
  rw [if_neg]
  · simp only [hsec, hsNat, UInt32.toNat_ofNat_of_lt' hl, hmicro, truncU32_div]
    rw [← rescale, UInt32.toNat_ofNat_of_lt' hcut]
    rfl
  · rw [UInt32.lt_iff_toNat_lt, hmsw, show rtpNtpTimeOffset.toNat = 2208988800 from rfl]
    omega

theorem ofNtpTime_getNtpTime (hs : s < 2 ^ 32 - 2208988800) (hm : m < 1000000) :
    ofNtpTime (getNtpTime (timeAt s m)) =
      timeAt s (rescale (2 ^ 32) 1000000 (rescale 1000000 (2 ^ 32) m)) := by
  have hl : rescale 1000000 (2 ^ 32) m < 2 ^ 32 := by
    have h := rescale_lt (b := 2 ^ 32) hm
    omega
  rw [getNtpTime_timeAt (by omega) hm, ofNtpTime_offset hs hl]

/-- Both ways cut off, so a time comes back as it was when its microseconds are whole
`2 ^ 32`-ths of a second. -/
theorem ntpTime_roundTrip_iff (hs : s < 2 ^ 32 - 2208988800) (hm : m < 1000000) :
    getSeconds (ofNtpTime (getNtpTime (rtpTimeOf s (UInt32.ofNat m)))) = s ∧
      getMicroseconds (ofNtpTime (getNtpTime (rtpTimeOf s (UInt32.ofNat m)))) = UInt32.ofNat m ↔
    15625 ∣ m := by
  have hback : rescale (2 ^ 32) 1000000 (rescale 1000000 (2 ^ 32) m) ≤ m := by
    rw [rescale_rescale (by norm_num) (by norm_num)]
    split <;> omega
  rw [rtpTimeOf_natCast (by omega), ofNtpTime_getNtpTime hs hm,
    getSeconds_timeAt (by omega), getMicroseconds_timeAt (by omega)]
  calc
    _ ↔ rescale (2 ^ 32) 1000000 (rescale 1000000 (2 ^ 32) m) = m := by
      rw [← UInt32.toNat_inj, UInt32.toNat_ofNat_of_lt' (show _ < 2 ^ 32 by omega),
        UInt32.toNat_ofNat_of_lt' (show _ < 2 ^ 32 by omega)]
      exact and_iff_right rfl
    _ ↔ 1000000 ∣ m * 2 ^ 32 := rescale_rescale_eq_iff (by norm_num) (by norm_num)
    _ ↔ 64 * 15625 ∣ 64 * (m * 2 ^ 26) := by rw [show m * 2 ^ 32 = 64 * (m * 2 ^ 26) by ring]
    _ ↔ 15625 ∣ m * 2 ^ 26 := Nat.mul_dvd_mul_iff_left (by norm_num)
    _ ↔ 15625 ∣ m :=
      Nat.Coprime.dvd_mul_right (Nat.Coprime.pow_right 26 (by decide))

theorem quarterSecond_roundTrip :
    getSeconds (ofNtpTime (getNtpTime (rtpTimeOf (1700000000 : ℕ) (UInt32.ofNat 250000)))) =
        (1700000000 : ℕ) ∧
      getMicroseconds (ofNtpTime (getNtpTime (rtpTimeOf (1700000000 : ℕ) (UInt32.ofNat 250000)))) =
        UInt32.ofNat 250000 :=
  (ntpTime_roundTrip_iff (by norm_num) (by norm_num)).2 (by norm_num)

/-- A microsecond is lost on the way. -/
theorem microsecond_lost :
    getMicroseconds (ofNtpTime (getNtpTime (rtpTimeOf 0 1))) = 0 ∧
      getMicroseconds (rtpTimeOf 0 1) = 1 := by
  decide +kernel

end Mprtp
