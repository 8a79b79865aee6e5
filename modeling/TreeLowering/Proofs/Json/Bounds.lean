import TreeLowering.Proofs.Json.RoundTrip

/-!
# What a text can be read as

Whatever a text looks like, the numbers in the value that it is read as are integers of 64 bits
or finite, and arrays and objects nest only as deep in it as they would be read again. The first
holds of every token that a step of the scanner gives. For the second every open array and object
knows how deep it lies, and each step of the reader keeps what has been read within the room that
is left there.
-/

namespace TreeLowering.Json

/-! ## Tokens -/

/-- A value that a single token can be: its numbers are in range, and nothing nests in it. -/
structure Plain (v : Json) : Prop where
  inRange : v.Each InRange
  depth_eq : v.depth = 0

/-- A bare word is read as a plain value. -/
private theorem plain_scalar {word : List Char} {v : Json}
    (h : scalarOfWord? numberOfWord? word = some v) : v.Plain := by
  rw [scalarOfWord?.eq_def] at h
  split at h
  · cases h
    exact ⟨trivial, rfl⟩
  · cases h
    exact ⟨trivial, rfl⟩
  · cases h
    exact ⟨trivial, rfl⟩
  · obtain ⟨n, hn, rfl⟩ := Option.map_eq_some_iff.mp h
    have hrange := inRange_numberOfWord? hn
    cases n <;> exact ⟨hrange, rfl⟩

/-- Tokens whose values are all plain. -/
def PlainTokens (tokens : List Token) : Prop := ∀ v, .scalar v ∈ tokens → v.Plain

namespace Scan

/-- What ends between tokens is a mark. -/
private theorem scalar_not_mem_stepBetween {c : Char} {next : Scan} {tokens : List Token}
    (h : stepBetween c = some (next, tokens)) (v : Json) : .scalar v ∉ tokens := by
  revert h
  fun_cases stepBetween c
  all_goals rintro ⟨⟩
  all_goals simp

/-- Every value that a step of the scanner gives is plain. -/
theorem plainTokens_step {s next : Scan} {c : Char} {tokens : List Token}
    (h : s.step numberOfWord? c = some (next, tokens)) : PlainTokens tokens := by
  intro v hv
  cases s with
  | between => exact absurd hv (scalar_not_mem_stepBetween h v)
  | word seen =>
    rw [step] at h
    split at h
    · cases h
      cases hv
    · obtain ⟨value, hvalue, h⟩ := Option.bind_eq_some_iff.mp h
      obtain ⟨⟨behind, marks⟩, hmarks, h⟩ := Option.bind_eq_some_iff.mp h
      cases h
      rcases List.mem_cons.mp hv with hv | hv
      · cases hv
        exact plain_scalar hvalue
      · exact absurd hv (scalar_not_mem_stepBetween hmarks v)
  | text seen =>
    rw [step] at h
    split at h
    · cases h
      cases List.mem_singleton.mp hv
      exact ⟨trivial, rfl⟩
    · repeat' split at h
      all_goals cases h
      all_goals cases hv
  | escape seen =>
    rw [step] at h
    split at h
    · cases h
      cases hv
    · obtain ⟨d, -, h⟩ := Option.map_eq_some_iff.mp h
      cases h
      cases hv
  | codeUnit seen first value left =>
    rw [step] at h
    obtain ⟨digit, -, h⟩ := Option.bind_eq_some_iff.mp h
    simp only at h
    split at h
    · cases h
      cases hv
    · obtain ⟨behind, -, h⟩ := Option.map_eq_some_iff.mp h
      cases h
      cases hv
  | pair seen first =>
    rw [step] at h
    split at h
    · cases h
      cases hv
    · cases h
  | pairEscape seen first =>
    rw [step] at h
    split at h
    · cases h
      cases hv
    · cases h

/-- So is every value that the scanner gives at the end of a text. -/
theorem plainTokens_finish {s : Scan} {tokens : List Token}
    (h : s.finish numberOfWord? = some tokens) : PlainTokens tokens := by
  intro v hv
  cases s with
  | between =>
    cases h
    cases hv
  | word seen =>
    obtain ⟨value, hvalue, h⟩ := Option.map_eq_some_iff.mp h
    cases h
    cases List.mem_singleton.mp hv
    exact plain_scalar hvalue
  | _ => cases h

/-- Every value that the scanner finds in a text is plain, by induction on the text. -/
theorem plainTokens_run {s : Scan} {cs : List Char} {tokens : List Token}
    (h : s.run numberOfWord? cs = some tokens) : PlainTokens tokens := by
  induction cs generalizing s tokens with
  | nil => exact plainTokens_finish h
  | cons c cs ih =>
    rw [run, Option.bind_eq_bind, Option.bind_eq_some_iff] at h
    obtain ⟨⟨next, first⟩, hstep, h⟩ := h
    obtain ⟨rest, hrest, h⟩ := Option.bind_eq_some_iff.mp h
    cases h
    intro v hv
    rcases List.mem_append.mp hv with hv | hv
    · exact plainTokens_step hstep v hv
    · exact ih hrest v hv

end Scan

/-! ## Values -/

/-- What holds of everything in the items of an array holds of everything in each item. -/
theorem eachItem_iff {p : Json → Prop} (xs : List Json) :
    EachItem p xs ↔ ∀ x ∈ xs, x.Each p := by
  induction xs with
  | nil => exact iff_of_true trivial nofun
  | cons x xs ih => rw [EachItem, ih, List.forall_mem_cons]

/-- Likewise for the values of the fields of an object. -/
theorem eachField_iff {p : Json → Prop} (fs : List (String × Json)) :
    EachField p fs ↔ ∀ f ∈ fs, f.2.Each p := by
  induction fs with
  | nil => exact iff_of_true trivial nofun
  | cons f fs ih => rw [EachField, ih, List.forall_mem_cons]

/-- Items nest within a bound when each item does. -/
theorem itemDepth_le_iff (xs : List Json) (n : Nat) :
    itemDepth xs ≤ n ↔ ∀ x ∈ xs, x.depth ≤ n := by
  induction xs with
  | nil => exact iff_of_true (Nat.zero_le n) nofun
  | cons x xs ih => rw [itemDepth, Nat.max_le, ih, List.forall_mem_cons]

/-- Likewise for the values of fields. -/
theorem fieldDepth_le_iff (fs : List (String × Json)) (n : Nat) :
    fieldDepth fs ≤ n ↔ ∀ f ∈ fs, f.2.depth ≤ n := by
  induction fs with
  | nil => exact iff_of_true (Nat.zero_le n) nofun
  | cons f fs ih => rw [fieldDepth, Nat.max_le, ih, List.forall_mem_cons]

/-- A value that can be read inside some open arrays and objects. -/
structure FitsBelow (outer : Nat) (v : Json) : Prop where
  inRange : v.Each InRange
  depth_le : outer + v.depth ≤ maxDepth

/-- There is room for an array when there is for its items one level further down. -/
theorem fitsBelow_array {outer : Nat} {xs : List Json} (hroom : outer < maxDepth)
    (h : ∀ x ∈ xs, FitsBelow (outer + 1) x) : FitsBelow outer (array xs) := by
  refine ⟨(eachItem_iff xs).mpr fun x hx => (h x hx).inRange, ?_⟩
  have hitems : itemDepth xs ≤ maxDepth - (outer + 1) := by
    refine (itemDepth_le_iff xs _).mpr fun x hx => ?_
    have := (h x hx).depth_le
    omega
  rw [depth]
  omega

/-- Likewise for an object. -/
theorem fitsBelow_object {outer : Nat} {fs : List (String × Json)} (hroom : outer < maxDepth)
    (h : ∀ f ∈ fs, FitsBelow (outer + 1) f.2) : FitsBelow outer (object fs) := by
  refine ⟨(eachField_iff fs).mpr fun f hf => (h f hf).inRange, ?_⟩
  have hfields : fieldDepth fs ≤ maxDepth - (outer + 1) := by
    refine (fieldDepth_le_iff fs _).mpr fun f hf => ?_
    have := (h f hf).depth_le
    omega
  rw [depth]
  omega

/-- What has been read of an open array or object. -/
def Frame.values : Frame → List Json
  | .array items => items
  | .object fields _ => fields.map Prod.snd

/-- There was room to open all arrays and objects that are open, and what has been read of them
fits below them. -/
def FramesFit : List Frame → Prop
  | [] => True
  | f :: fs =>
    fs.length < maxDepth ∧ (∀ v ∈ f.values, FitsBelow (fs.length + 1) v) ∧ FramesFit fs

/-- No more arrays and objects are open than there may be. -/
theorem length_le_of_framesFit {fs : List Frame} (h : FramesFit fs) : fs.length ≤ maxDepth := by
  cases fs with
  | nil => exact Nat.zero_le _
  | cons f fs => exact h.1

namespace Reading

/-- The arrays and objects that are open in a state, the innermost first. -/
def opened : Reading → List Frame
  | value frames => frames
  | firstItem frames => .array [] :: frames
  | firstKey frames => .object [] "" :: frames
  | nextKey fields frames => .object fields "" :: frames
  | colon fields key frames => .object fields key :: frames
  | afterItem items frames => .array items :: frames
  | afterField fields frames => .object fields "" :: frames
  | done _ => []

/-- Everything that has been read fits where it stands. -/
structure Sound (r : Reading) : Prop where
  opened_fit : FramesFit r.opened
  value_fits : ∀ v, r = done v → FitsBelow 0 v

/-- A complete value keeps what has been read within its room. -/
theorem sound_complete {v : Json} {frames : List Frame} (hframes : FramesFit frames)
    (hv : FitsBelow frames.length v) : (complete v frames).Sound := by
  cases frames with
  | nil =>
    refine ⟨trivial, ?_⟩
    rintro _ ⟨⟩
    exact hv
  | cons f frames =>
    obtain ⟨hroom, hvalues, hrest⟩ := hframes
    cases f with
    | array items => exact ⟨⟨hroom, List.forall_mem_cons.mpr ⟨hv, hvalues⟩, hrest⟩, nofun⟩
    | object fields key => exact ⟨⟨hroom, List.forall_mem_cons.mpr ⟨hv, hvalues⟩, hrest⟩, nofun⟩

/-- A token that opens or is a value keeps what has been read within its room. -/
theorem sound_stepValue {token : Token} {frames : List Frame} {next : Reading}
    (hframes : FramesFit frames) (htoken : ∀ v, token = .scalar v → v.Plain)
    (h : stepValue token frames = some next) : next.Sound := by
  rw [stepValue.eq_def] at h
  split at h
  · next v =>
    cases h
    have hplain := htoken v rfl
    refine sound_complete hframes ⟨hplain.inRange, ?_⟩
    rw [hplain.depth_eq]
    exact length_le_of_framesFit hframes
  · split at h
    · next hroom =>
      cases h
      exact ⟨⟨hroom, nofun, hframes⟩, nofun⟩
    · cases h
  · split at h
    · next hroom =>
      cases h
      exact ⟨⟨hroom, nofun, hframes⟩, nofun⟩
    · cases h
  · cases h

/-- So does the end of an array. -/
private theorem sound_closeArray {items : List Json} {frames : List Frame}
    (h : FramesFit (.array items :: frames)) : (complete (array items.reverse) frames).Sound := by
  obtain ⟨hroom, hitems, hframes⟩ := h
  exact sound_complete hframes
    (fitsBelow_array hroom fun x hx => hitems x (List.mem_reverse.mp hx))

/-- So does the end of an object. -/
private theorem sound_closeObject {fields : List (String × Json)} {key : String}
    {frames : List Frame} (h : FramesFit (.object fields key :: frames)) :
    (complete (object fields.reverse) frames).Sound := by
  obtain ⟨hroom, hfields, hframes⟩ := h
  refine sound_complete hframes (fitsBelow_object hroom fun f hf => ?_)
  exact hfields f.2 (List.mem_map_of_mem (List.mem_reverse.mp hf))

/-- Every token keeps what has been read within its room. -/
theorem sound_step {r next : Reading} {token : Token} (hr : r.Sound)
    (htoken : ∀ v, token = .scalar v → v.Plain) (h : r.step token = some next) : next.Sound := by
  have hopened := hr.opened_fit
  revert h
  fun_cases step r token with
  | case1 frames => exact sound_stepValue hopened htoken
  | case2 frames =>
    rintro ⟨⟩
    exact sound_closeArray hopened
  | case3 frames => exact sound_stepValue hopened htoken
  | case4 frames =>
    rintro ⟨⟩
    exact sound_closeObject hopened
  | case9 items frames =>
    rintro ⟨⟩
    exact sound_closeArray hopened
  | case11 fields frames =>
    rintro ⟨⟩
    exact sound_closeObject hopened
  -- Keys, colons and commas only change what is expected next.
  | case5 | case6 | case7 | case8 | case10 =>
    rintro ⟨⟩
    exact ⟨hopened, nofun⟩
  | case12 => exact nofun

/-- All tokens of a text keep what has been read within its room. -/
theorem sound_run {r last : Reading} {tokens : List Token} (hr : r.Sound)
    (htokens : PlainTokens tokens) (h : r.run tokens = some last) : last.Sound := by
  induction tokens generalizing r with
  | nil =>
    cases h
    exact hr
  | cons t ts ih =>
    rw [run] at h
    obtain ⟨next, hstep, h⟩ := Option.bind_eq_some_iff.mp h
    have hnext : next.Sound :=
      sound_step hr (fun v hv => htokens v (hv ▸ List.mem_cons_self)) hstep
    exact ih hnext (fun v hv => htokens v (List.mem_cons_of_mem t hv)) h

end Reading

/-- The numbers in what a text is read as are in range, and nothing nests too deep in it. -/
theorem fitsBelow_of_read {cs : List Char} {j : Json} (h : read cs = some j) : FitsBelow 0 j := by
  obtain ⟨tokens, htokens, h⟩ := Option.bind_eq_some_iff.mp h
  obtain ⟨last, hlast, h⟩ := Option.bind_eq_some_iff.mp h
  have hstart : (Reading.value []).Sound := ⟨trivial, nofun⟩
  have hsound := Reading.sound_run hstart (Scan.plainTokens_run htokens) hlast
  cases last with
  | done v =>
    cases h
    exact hsound.value_fits j rfl
  | _ => cases h

end TreeLowering.Json
