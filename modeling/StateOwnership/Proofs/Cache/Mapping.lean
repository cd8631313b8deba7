import StateOwnership.Cache.Load
import StateOwnership.Proofs.Cache.Pulling

/-!
# Mapping without fetching

The owners of paths can be mapped from the configuration alone, key by key into one map. A pull
makes a map a fetch and joins them, in order or by position. **Both come to the same map, entry for
entry, whatever paths are shared within a backend and between backends**: a path stands where it came
first and belongs to whom it came last.
-/

namespace StateOwnership.Cache

-- Mapping a valid configuration forgets what was mapped before, and says at most that options are
-- missing.
theorem mapConfigured_run {cache : Cache} (hvalid : cache.config.check = .ok ()) (world : World) :
    ∃ after, World.Alike world after ∧ mapConfigured.runOn cache world =
      (.ok cache.configured, { cache with
        config := cache.config.withOptions
        filenames := cache.configured }, after) := by
  obtain ⟨after, hvalidate, halike⟩ := validated_run hvalid world
  refine ⟨after, halike, ?_⟩
  simp only [mapConfigured, validate, Step.runOn_bind, Step.runOn_get, Step.runOn_ofAction,
    hvalidate, Step.runOn_modify, Step.runOn_pure]
  rfl

section Agreement

variable {cloud : Cloud} {factory : Fetch.Factory} {cancelAt : Option Nat} {schedule : Schedule}
  {cache : Cache} {world : World}

/-- **After a pull that succeeds, mapping the configuration alone gives the map that the pull left**,
and the same cache, before the pull and after it. So what is loaded after the one is what is loaded
after the other. -/
theorem mapping_agrees (hvalid : cache.config.check = .ok ())
    (horder : cache.workers ≠ 1 →
      schedule.order.Perm (List.range cache.config.backends.length))
    (hpull : ((pull cloud factory cancelAt schedule).runOn cache world).1.toBool = true) :
    let pulled := ((pull cloud factory cancelAt schedule).runOn cache world).2.1
    ∀ before, before = cache ∨ before = pulled → ∀ earlier,
      let mapped := mapConfigured.runOn before earlier
      mapped.1 = .ok pulled.filenames ∧ mapped.2.1 = pulled ∧
        World.Alike earlier mapped.2.2 ∧
        ∀ now later, (load now mapped.2.1).runIn later = (load now pulled).runIn later := by
  rcases hrun : (pull cloud factory cancelAt schedule).runOn cache world with
    ⟨failure | outcomes, after, final⟩
  · rw [hrun] at hpull
    simp [Except.toBool] at hpull
  have hafter := pull_cache hvalid horder hrun
  have hvalid' : after.config.check = .ok () := by
    rw [hafter]
    exact hvalid
  -- Setting options that are set changes nothing, and the jobs of both caches are the same.
  have hsame : ({ after with
      config := after.config.withOptions
      filenames := after.configured } : Cache) = after := by
    rw [hafter]
    rfl
  have hnames : after.configured = after.filenames := by
    rw [hafter]
    rfl
  intro pulled before hbefore earlier mapped
  have hmapped : mapped.1 = .ok after.filenames ∧ mapped.2.1 = after ∧
      World.Alike earlier mapped.2.2 := by
    rcases hbefore with rfl | rfl
    · obtain ⟨world', halike, hmap⟩ := mapConfigured_run hvalid earlier
      rw [show mapped = _ from hmap, hafter]
      exact ⟨rfl, rfl, halike⟩
    · obtain ⟨world', halike, hmap⟩ := mapConfigured_run hvalid' earlier
      rw [show mapped = _ from hmap, hsame, hnames]
      exact ⟨rfl, rfl, halike⟩
  refine ⟨hmapped.1, hmapped.2.1, hmapped.2.2, fun now later => ?_⟩
  rw [hmapped.2.1]

end Agreement

/-- A cache of two backends of one bucket whose keys share paths, within a backend and between
backends. -/
def sharingCache : Cache :=
  .make ⟨"d", none, [⟨"b", ["a", "c", "/a"], [], [], [], []⟩, ⟨"b", ["e", "//c"], [], [], [], []⟩]⟩
    true 2

/-- Fetches that end in the reverse order and share paths leave the map that follows from the
configuration. -/
theorem mapping_of_shared_paths :
    let run := (pull spellingCloud .standard none ⟨[1, 0], [1]⟩).runOn sharingCache sampleWorld
    run.1.toBool = true ∧
      (mapConfigured.runOn sharingCache sampleWorld).1 = .ok run.2.1.filenames ∧
      run.2.1.filenames.entries = ([("d/b/a", "arn:aws:s3:::b//a"),
        ("d/b/c", "arn:aws:s3:::b///c"), ("d/b/e", "arn:aws:s3:::b/e")] : List (Text × Text)) := by
  have hpull : ((pull spellingCloud .standard none ⟨[1, 0], [1]⟩).runOn sharingCache
      sampleWorld).1.toBool = true := by decide +kernel
  have hmaps := mapping_agrees (by decide +kernel) (fun _ => by decide) hpull sharingCache
    (.inl rfl) sampleWorld
  exact ⟨hpull, hmaps.1, by decide +kernel⟩

end StateOwnership.Cache
