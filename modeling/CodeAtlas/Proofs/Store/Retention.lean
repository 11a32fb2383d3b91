import CodeAtlas.Proofs.Store.Replies
import CodeAtlas.Proofs.Store.Upserting

/-!
# How long replies are kept

`expire_exact` says which replies a cleanup deletes, at any time and for any age: those before the
cutoff, which lies the age before the time, none if that is before all times, and all if it is after
them; and that a greater age deletes no reply that a smaller one keeps. Times and ages are in
nanoseconds, those of replies in milliseconds.
-/

namespace CodeAtlas.Store

open Time (Timestamp)

def firstTime : Int := Timestamp.millisRange.1 * 1000000

def lastTime : Int := Timestamp.millisRange.2 * 1000000 + 999999

/-- Whether a reply was recorded before a time in milliseconds. -/
def Entry.IsBefore (time : Int) (entry : Entry) : Prop :=
  ∃ replied < time, entry.repliedAt = .integer replied

section Cutoffs

variable {now age : Int}

theorem cutoff_in_range (hfirst : firstTime ≤ now - age) (hlast : now - age ≤ lastTime) :
    cutoffAt now age = (now - age) / 1000000 := by
  have hrange : Timestamp.millisRange.1 ≤ (now - age) / 1000000 ∧
      (now - age) / 1000000 ≤ Timestamp.millisRange.2 := by
    rw [firstTime] at hfirst
    rw [lastTime] at hlast
    omega
  rw [cutoffAt, Timestamp.ofMillis?, if_pos hrange]
  exact millis_of_millis (if_pos hrange)

theorem cutoff_out_of_range (h : now - age < firstTime ∨ lastTime < now - age) :
    cutoffAt now age = if age < 0 then 2 ^ 63 - 1 else -2 ^ 63 := by
  rw [cutoffAt, Timestamp.ofMillis?, if_neg]
  simp only [firstTime, lastTime] at h
  omega

theorem cutoff_below (hnow : firstTime ≤ now) (h : now - age < firstTime) :
    cutoffAt now age = -2 ^ 63 := by
  rw [cutoff_out_of_range (.inl h), if_neg (by omega)]

theorem cutoff_above (hnow : now ≤ lastTime) (h : lastTime < now - age) :
    cutoffAt now age = 2 ^ 63 - 1 := by
  rw [cutoff_out_of_range (.inr h), if_pos (by omega)]

/-- A greater age has no later cutoff, in the range of times and beyond. -/
theorem cutoff_antitone {more : Int} (hfirst : firstTime ≤ now) (hlast : now ≤ lastTime)
    (hle : age ≤ more) : cutoffAt now more ≤ cutoffAt now age := by
  have hbounds (age : Int) : -2 ^ 63 ≤ cutoffAt now age ∧ cutoffAt now age ≤ 2 ^ 63 - 1 := by
    by_cases hrange : firstTime ≤ now - age ∧ now - age ≤ lastTime
    · rw [cutoff_in_range hrange.1 hrange.2]
      simp only [firstTime, lastTime, Timestamp.millisRange] at hrange
      omega
    · rw [cutoff_out_of_range (by omega)]
      split <;> omega
  by_cases hbelow : now - more < firstTime
  · rw [cutoff_below hfirst hbelow]
    exact (hbounds age).1
  · by_cases habove : lastTime < now - age
    · rw [cutoff_above hlast habove]
      exact (hbounds more).2
    · rw [cutoff_in_range (by omega) (by omega), cutoff_in_range (by omega) (by omega)]
      omega

end Cutoffs

variable {store : Store}

theorem lt_integer {ms time : Int} : (Cell.integer ms).lt (.integer time) = true ↔ ms < time := by
  simp [Cell.lt, Cell.le]

theorem lt_integer_mono {cell : Cell} {first second : Int} (hle : first ≤ second)
    (h : cell.lt (.integer first) = true) : cell.lt (.integer second) = true := by
  cases cell with
  | integer ms => exact lt_integer.mpr (Int.lt_of_lt_of_le (lt_integer.mp h) hle)
  | text => exact h
  | real x =>
    simp only [Cell.lt, Cell.le, Cell.fraction?, Bool.not_eq_true', decide_eq_false_iff_not,
      not_le] at h ⊢
    exact Int.lt_of_lt_of_le h (Int.mul_le_mul_of_nonneg_right hle (Int.natCast_nonneg _))

theorem IsReady.expire (h : store.IsReady) (now age : Int) :
    let isOld (entry : Entry) := entry.repliedAt.lt (.integer (cutoffAt now age))
    (store.expireReplies now age).1 = .ok (store.tables.replies.countP isOld) ∧
      (store.expireReplies now age).2.tables =
        { store.tables with replies := store.tables.replies.filter (!isOld ·) } := by
  intro isOld
  obtain ⟨hresult, htables, _⟩ := h.write_eq
    (Statement.delete_replies_before_sound (cutoffAt now age)) "cleanup_old_replies" fun _ => rfl
  rw [List.countP_eq_length_filter]
  exact ⟨hresult, htables⟩

/-- A cleanup of an index that is in use deletes the replies before the millisecond of its cutoff
and gives their number; a cutoff before the first time deletes none and one after the last time all.
A greater age leaves all that a smaller one leaves. -/
theorem expire_exact (h : store.Reachable) (husable : store.IsUsable) {now : Int}
    (hfirst : firstTime ≤ now) (hlast : now ≤ lastTime)
    (hledger : ∀ entry ∈ store.tables.replies, ∀ ms, entry.repliedAt = .integer ms →
      -2 ^ 63 ≤ ms ∧ ms < 2 ^ 63 - 1) :
    let before := store.tables
    let after (age : Int) := (store.expireReplies now age).2.tables
    (∀ age, ∃ isOld : Entry → Bool,
      (store.expireReplies now age).1 = .ok (before.replies.countP isOld) ∧
      after age = { before with replies := before.replies.filter (!isOld ·) } ∧
      (firstTime ≤ now - age → now - age ≤ lastTime → ∀ entry ∈ before.replies,
        isOld entry = true ↔ entry.IsBefore ((now - age) / 1000000)) ∧
      (now - age < firstTime → ∀ entry ∈ before.replies, isOld entry = false) ∧
      (lastTime < now - age → ∀ entry ∈ before.replies, isOld entry = true)) ∧
    ∀ age more, age ≤ more → (after age).replies.Sublist (after more).replies := by
  intro before after
  have hexpire := (h.isReady husable).expire now
  refine ⟨fun age => ⟨_, (hexpire age).1, (hexpire age).2, ?_, ?_, ?_⟩, fun age more hle => ?_⟩
  · intro hbelow habove entry hentry
    obtain ⟨ms, hms⟩ := h.replied_at entry hentry
    rw [hms, lt_integer, cutoff_in_range hbelow habove]
    simp [Entry.IsBefore, hms]
  · intro hbelow entry hentry
    obtain ⟨ms, hms⟩ := h.replied_at entry hentry
    rw [hms, ← Bool.not_eq_true, lt_integer, cutoff_below hfirst hbelow, not_lt]
    exact (hledger entry hentry ms hms).1
  · intro habove entry hentry
    obtain ⟨ms, hms⟩ := h.replied_at entry hentry
    rw [hms, lt_integer, cutoff_above hlast habove]
    exact (hledger entry hentry ms hms).2
  · change List.Sublist (store.expireReplies now age).2.tables.replies
      (store.expireReplies now more).2.tables.replies
    rw [(hexpire age).2, (hexpire more).2]
    refine List.monotone_filter_right _ fun entry hkept => ?_
    rw [Bool.not_eq_true', ← Bool.not_eq_true] at hkept ⊢
    exact fun hold => hkept (lt_integer_mono (cutoff_antitone hfirst hlast hle) hold)

/-- Replies at the first second and at the next one. -/
def ledgerStore : Store :=
  sampleStore.run [.call (.recordReplyAt 1 1 "r" ⟨0, 0⟩), .call (.recordReplyAt 1 1 "s" ⟨1, 0⟩)]

/-- A reply at the cutoff is kept. -/
theorem expire_exact_ledger :
    ledgerStore.IsUsable ∧ (ledgerStore.expireReplies 1500000000 500000000).1 = .ok 1 ∧
      ∀ entry ∈ ledgerStore.tables.replies, entry.repliedAt = .integer 1000 →
        entry ∈ (ledgerStore.expireReplies 1500000000 500000000).2.tables.replies := by
  have hreachable : ledgerStore.Reachable := ⟨_, _, _, _, _, sample_disk_empty, open_sample, rfl⟩
  have husable : ledgerStore.IsUsable := by decide +kernel
  have hreplies : ledgerStore.tables.replies.map Entry.repliedAt = [.integer 0, .integer 1000] := by
    decide +kernel
  have hledger : ∀ entry ∈ ledgerStore.tables.replies, ∀ ms, entry.repliedAt = .integer ms →
      -2 ^ 63 ≤ ms ∧ ms < 2 ^ 63 - 1 := by
    intro entry hentry ms hms
    have hmem := List.mem_map_of_mem (f := Entry.repliedAt) hentry
    rw [hreplies, hms] at hmem
    rcases List.mem_pair.mp hmem with heq | heq <;> cases heq <;> decide
  obtain ⟨isOld, _, htables, hexact, _⟩ := (expire_exact hreachable husable
    (by decide : firstTime ≤ 1500000000) (by decide) hledger).1 500000000
  have hexact := hexact (by decide) (by decide)
  refine ⟨husable, by decide +kernel, fun entry hentry hms => ?_⟩
  rw [show (ledgerStore.expireReplies 1500000000 500000000).2.tables = _ from htables]
  refine List.mem_filter.mpr ⟨hentry, ?_⟩
  rw [Bool.not_eq_true', ← Bool.not_eq_true, hexact entry hentry]
  rintro ⟨ms, hlt, heq⟩
  cases hms.symm.trans heq
  exact absurd hlt (by decide)

end CodeAtlas.Store
