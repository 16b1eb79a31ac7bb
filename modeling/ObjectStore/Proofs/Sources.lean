import ObjectStore.Sources

/-!
# Stamps never go back

The numbers of successive stamps never decrease. From the first representable microsecond on, a greater number stands for a later instant: a number whose instant is not represented any more stands for the last instant of all.
-/

namespace ObjectStore

namespace Instant

/-- The first instant, in microseconds. -/
def firstMicros : Int := Calendar.firstSecond * 1000000

/-- The first of two instants is not the later one. -/
def NotAfter (a b : Instant) : Prop := a.compare b ≠ .gt

theorem notAfter_iff {a b : Instant} : a.NotAfter b ↔ a.seconds < b.seconds ∨ a.seconds = b.seconds ∧ a.nanos ≤ b.nanos := by
  simp only [NotAfter, compare, ne_eq, Ordering.then_eq_gt, Int.compare_eq_gt, Nat.compare_eq_gt, Int.compare_eq_eq]
  omega

theorem compare_eq_lt_iff {a b : Instant} :
    a.compare b = .lt ↔ a.seconds < b.seconds ∨ a.seconds = b.seconds ∧ a.nanos < b.nanos := by
  rw [compare, Ordering.then_eq_lt, Int.compare_eq_lt, Int.compare_eq_eq, Nat.compare_eq_lt]

theorem micros_bounds (t : Instant) : firstMicros ≤ t.micros ∧ t.micros ≤ WriteClock.greatest := by
  have hvalid := t.valid
  simp only [Calendar.isInstant, Calendar.isNanos, Bool.and_eq_true, Bool.or_eq_true, decide_eq_true_eq] at hvalid
  have hnanos : Calendar.nanosPerSecond = 1000000000 := rfl
  have hlast : Calendar.lastSecond = 8210266876799 := rfl
  have hgreatest : WriteClock.greatest = 9223372036854775807 := rfl
  simp only [firstMicros, micros, hgreatest]
  omega

/-- No instant is later than the last one, leap seconds apart. -/
theorem notAfter_last {t : Instant} (h : t.nanos < 1000000000) : t.NotAfter last := by
  have hvalid := t.valid
  simp only [Calendar.isInstant, Bool.and_eq_true, decide_eq_true_eq] at hvalid
  have hlast : last.seconds = Calendar.lastSecond ∧ last.nanos = 999999999 := ⟨rfl, rfl⟩
  rw [notAfter_iff, hlast.1, hlast.2]
  omega

end Instant

namespace WriteClock

theorem instant_cases {stamp : Int} (h : Instant.firstMicros ≤ stamp) :
    ((micros.instant stamp).seconds = stamp / 1000000 ∧ (micros.instant stamp).nanos = (stamp % 1000000).toNat * 1000) ∨
      (Calendar.lastSecond < stamp / 1000000 ∧ micros.instant stamp = Instant.last) := by
  have hnanos : (stamp % 1000000).toNat * 1000 < 1000000000 := by omega
  simp only [instant, Instant.ofMicros?, Instant.ofParts?]
  split
  case isTrue => exact Or.inl ⟨rfl, rfl⟩
  case isFalse hinvalid =>
    have hordinary : (stamp % 1000000).toNat * 1000 < Calendar.nanosPerSecond := hnanos
    simp only [Calendar.isInstant, Calendar.isNanos, Bool.and_eq_true, Bool.or_eq_true, decide_eq_true_eq, hordinary, true_or,
      and_true, not_and] at hinvalid
    simp only [Instant.firstMicros] at h
    exact Or.inr ⟨by omega, rfl⟩

/-- A greater stamp stands for a later instant, or for the last one. -/
theorem instant_mono {a b : Int} (ha : Instant.firstMicros ≤ a) (hab : a ≤ b) :
    (micros.instant a).NotAfter (micros.instant b) := by
  have hlater := instant_cases (Int.le_trans ha hab)
  rcases instant_cases ha with ⟨hseconds, hnanos⟩ | ⟨hbeyond, hlast⟩
  · rcases hlater with ⟨hseconds', hnanos'⟩ | ⟨-, hlast'⟩
    · rw [Instant.notAfter_iff, hseconds, hseconds', hnanos, hnanos']
      omega
    · rw [hlast']
      exact Instant.notAfter_last (by omega)
  · rcases hlater with ⟨hseconds', -⟩ | ⟨-, hlast'⟩
    · have hvalid := (micros.instant b).valid
      simp only [Calendar.isInstant, Bool.and_eq_true, decide_eq_true_eq] at hvalid
      omega
    · rw [hlast, hlast', Instant.notAfter_iff]
      omega

/-- The last stamp that stands for an instant of its own. -/
def lastMicros : Int := Calendar.lastSecond * 1000000 + 999999

section Represented

variable {stamp : Int} (hfirst : Instant.firstMicros ≤ stamp) (hlast : stamp ≤ lastMicros)

include hfirst hlast

theorem instant_parts :
    (micros.instant stamp).seconds = stamp / 1000000 ∧ (micros.instant stamp).nanos = (stamp % 1000000).toNat * 1000 := by
  rcases instant_cases hfirst with hparts | ⟨hbeyond, -⟩
  · exact hparts
  · simp only [lastMicros] at hlast
    omega

theorem micros_instant : (micros.instant stamp).micros = stamp := by
  obtain ⟨hseconds, hnanos⟩ := instant_parts hfirst hlast
  rw [Instant.micros, hseconds, hnanos]
  omega

end Represented

/-- Among the stamps that stand for instants of their own, a greater one stands for a later instant. -/
theorem instant_lt {a b : Int} (ha : Instant.firstMicros ≤ a) (hab : a < b) (hb : b ≤ lastMicros) :
    (micros.instant a).compare (micros.instant b) = .lt := by
  obtain ⟨hseconds, hnanos⟩ := instant_parts ha (by omega)
  obtain ⟨hseconds', hnanos'⟩ := instant_parts (by omega) hb
  rw [Instant.compare_eq_lt_iff, hseconds, hseconds', hnanos, hnanos']
  omega

end WriteClock

namespace Sources

/-- The wall clock reads instants, in microseconds, and the last stamp fits 64 bits. -/
structure Sound (sources : Sources) : Prop where
  last_le : sources.last ≤ WriteClock.greatest
  wall : ∀ index, ∃ t : Instant, sources.wall index = t.micros

theorem Sound.draw {sources : Sources} (h : sources.Sound) : sources.draw.2.Sound := ⟨h.last_le, h.wall⟩

theorem Sound.now {sources : Sources} (h : sources.Sound) :
    (sources.now .micros).2.Sound ∧ sources.last ≤ (sources.now .micros).2.last ∧
      Instant.firstMicros ≤ (sources.now .micros).2.last ∧
      (sources.now .micros).1 = WriteClock.micros.instant (sources.now .micros).2.last := by
  obtain ⟨t, ht⟩ := h.wall sources.reads
  have hbounds := t.micros_bounds
  have hlast := h.last_le
  simp only [Sources.now, WriteClock.advance, ht]
  exact ⟨⟨by simp only; omega, h.wall⟩, by omega, by omega, trivial⟩

theorem last_lt_now {sources : Sources} (h : (sources.now .micros).2.last < WriteClock.greatest) :
    sources.last < (sources.now .micros).2.last := by
  simp only [now, WriteClock.advance] at h ⊢
  omega

theorem wall_le_now (sources : Sources) : sources.wall sources.reads ≤ (sources.now .micros).2.last :=
  Int.le_max_left _ _

end Sources

end ObjectStore
