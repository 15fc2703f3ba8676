import Mathlib.Data.List.Forall2
import StructuredText.Proofs.Exchange.Reader

/-!
# Tokens, constants and addresses are restored

Durations are written in a normal form, in which the seconds and their rest have the
same sign; the form is in range whenever the numbers that were read are.
-/

set_option autoImplicit false

namespace StructuredText

/-! ## Names -/

@[simp] theorem Ident.plain_toJson (ident : Ident) : ident.toJson.Plain := by
  simp [Ident.toJson]

theorem Ident.restores (depth : Nat) : Restores Ident.read Ident.toJson depth := by
  intro json ident found
  obtain ⟨name, -, rfl⟩ := Option.map_eq_some_iff.mp found
  rfl

@[simp] theorem Ident.plain_typeToJson (ident : Ident) : ident.typeToJson.Plain := by
  simp [Ident.typeToJson]

theorem Ident.restoresType : ∀ depth, Restores Ident.readType Ident.typeToJson depth := by
  refine Restores.record (by decide) (fun ident : Ident => [ident.toJson]) (fun _ => rfl) ?_
  intro depth fields ident found
  split at found
  · obtain ⟨json, -, found⟩ := Option.bind_eq_some_iff.mp found
    exact Ident.restores depth found
  · cases found

@[simp] theorem Tagged.plain_toJson {α : Type} [Tagged α] (value : α) :
    (Tagged.toJson value).Plain := by
  simp [Tagged.toJson]

/-! ## Records of literals -/

@[simp] theorem IntegerToken.plain_toJson (token : IntegerToken) : token.toJson.Plain := by
  simp [IntegerToken.toJson]

theorem IntegerToken.restores : ∀ depth, Restores IntegerToken.read IntegerToken.toJson depth := by
  refine Restores.record (by decide)
    (fun token : IntegerToken => [.string token.digits, Tagged.toJson token.radix])
    (fun _ => rfl) ?_
  intro depth fields token found
  split at found
  · obtain ⟨digits, readDigits, found⟩ := (Restores.string depth).required found
    obtain ⟨radix, readRadix, found⟩ := (Restores.tagged depth).required found
    cases found
    simp [readDigits, readRadix]
  · cases found

@[simp] theorem SignedToken.plain_toJson (token : SignedToken) : token.toJson.Plain := by
  simp [SignedToken.toJson]

theorem SignedToken.restores : ∀ depth, Restores SignedToken.read SignedToken.toJson depth := by
  refine Restores.record (by decide)
    (fun token : SignedToken => [token.value.toJson, .bool token.isNegative]) (fun _ => rfl) ?_
  intro depth fields token found
  split at found
  · obtain ⟨value, readValue, found⟩ := (IntegerToken.restores depth).required found
    obtain ⟨isNegative, readSign, found⟩ := (Restores.bool depth).required found
    cases found
    simp [readValue, readSign]
  · cases found

@[simp] theorem RealToken.plain_toJson (token : RealToken) : token.toJson.Plain := by
  simp [RealToken.toJson]

theorem RealToken.restores : ∀ depth, Restores RealToken.read RealToken.toJson depth := by
  refine Restores.record (by decide)
    (fun token : RealToken =>
      [.string token.text, .bool token.isNegative, Json.ofOption Tagged.toJson token.type])
    (fun _ => rfl) ?_
  intro depth fields token found
  split at found
  · obtain ⟨text, readText, found⟩ := (Restores.string depth).required found
    obtain ⟨isNegative, readSign, found⟩ := (Restores.bool depth).required found
    obtain ⟨type, readType, found⟩ := (Restores.tagged depth).optional (fun _ => nofun) found
    cases found
    simp [readText, readSign, readType]
  · cases found

@[simp] theorem CharString.plain_toJson (literal : CharString) : literal.toJson.Plain := by
  simp [CharString.toJson]

theorem CharString.restores : ∀ depth, Restores CharString.read CharString.toJson depth := by
  refine Restores.record (by decide)
    (fun literal : CharString => [.string literal.value, Tagged.toJson literal.width])
    (fun _ => rfl) ?_
  intro depth fields literal found
  split at found
  · obtain ⟨value, readValue, found⟩ := (Restores.string depth).required found
    obtain ⟨width, readWidth, found⟩ := (Restores.tagged depth).required found
    cases found
    simp [readValue, readWidth]
  · cases found

/-! ## Durations, dates and times -/

def InRanges (values : List Int) (ranges : List (Int × Int)) : Prop :=
  List.Forall₂ (fun value range => range.1 ≤ value ∧ value ≤ range.2) values ranges

theorem inRanges_of_mapM {ranges : List (Int × Int)} {depth : Nat} {items : List Json}
    {values : List Int} (sameLength : items.length = ranges.length)
    (found : (items.zip ranges).mapM
      (fun (item, low, high) => Reader.int low high depth item) = some values) :
    InRanges values ranges := by
  induction items generalizing ranges values with
  | nil =>
      cases ranges with
      | nil =>
          cases found
          exact .nil
      | cons range ranges => cases sameLength
  | cons item items ih =>
      cases ranges with
      | nil => cases sameLength
      | cons range ranges =>
          rw [List.zip_cons_cons, List.mapM_cons] at found
          obtain ⟨first, readFirst, found⟩ := Option.bind_eq_some_iff.mp found
          obtain ⟨others, readOthers, same⟩ := Option.bind_eq_some_iff.mp found
          cases same
          obtain ⟨-, inRange⟩ := Reader.int_eq_some.mp readFirst
          exact .cons inRange (ih (Nat.succ.inj sameLength) readOthers)

theorem inRanges_of_numbers {ranges : List (Int × Int)} {depth : Nat} {json : Json}
    {values : List Int} (found : Reader.numbers ranges (depth + 1) json = some values) :
    InRanges values ranges := by
  obtain ⟨items, -, found⟩ := Option.bind_eq_some_iff.mp found
  by_cases sameLength : items.length = ranges.length
  · rw [if_pos sameLength] at found
    exact inRanges_of_mapM sameLength found
  · rw [if_neg sameLength] at found
    cases found

theorem numbers_of_inRanges {ranges : List (Int × Int)} {values : List Int}
    (inRanges : InRanges values ranges) (depth : Nat) :
    Reader.numbers ranges (depth + 1) (.array (values.map .int)) = some values := by
  have sameLength : (values.map Json.int).length = ranges.length := by
    rw [List.length_map]
    exact inRanges.length_eq
  have readAll : ((values.map Json.int).zip ranges).mapM
      (fun (item, low, high) => Reader.int low high depth item) = some values := by
    clear sameLength
    induction inRanges with
    | nil => rfl
    | cons inRange others ih =>
        rw [List.map_cons, List.zip_cons_cons, List.mapM_cons, ih]
        dsimp only
        rw [Reader.int_eq_some.mpr ⟨Json.int?_int _, inRange⟩]
        rfl
  show (if _ then _ else _) = _
  rw [if_pos sameLength, readAll]

/-- A value that is made of numbers, whose own numbers are in range and make it again. -/
theorem Restores.numbers {α : Type} {ranges : List (Int × Int)} {make : List Int → Option α}
    (parts : α → List Int)
    (step : ∀ numbers value, InRanges numbers ranges → make numbers = some value →
      InRanges (parts value) ranges ∧ make (parts value) = some value) (depth : Nat) :
    Restores (fun depth json => (Reader.numbers ranges depth json).bind make)
      (fun value => .array ((parts value).map .int)) depth := by
  intro json value found
  obtain ⟨numbers, readNumbers, made⟩ := Option.bind_eq_some_iff.mp found
  cases depth with
  | zero => cases readNumbers
  | succ depth =>
      obtain ⟨inRanges, madeAgain⟩ := step numbers value (inRanges_of_numbers readNumbers) made
      dsimp only
      rw [numbers_of_inRanges inRanges]
      exact madeAgain

@[simp] theorem Duration.plain_toJson (duration : Duration) : duration.toJson.Plain := by
  simp [Duration.toJson]

/-- The ranges of the two numbers of a duration. -/
def Duration.ranges : List (Int × Int) :=
  [(-Duration.limit, Duration.limit - 1), (-999999999, 999999999)]

/-- The normal form of a duration that was read is in range. -/
theorem Duration.inRanges_parts {seconds rest : Int}
    (inRanges : InRanges [seconds, rest] Duration.ranges) :
    InRanges [(ofSeconds seconds rest).seconds, (ofSeconds seconds rest).rest]
      Duration.ranges := by
  obtain _ | ⟨secondsInRange, _ | ⟨restInRange, _⟩⟩ := inRanges
  unfold Duration.seconds Duration.rest ofSeconds second
  dsimp only [limit] at secondsInRange restInRange ⊢
  generalize total : seconds * 1000000000 + rest = nanoseconds
  have split := Int.tdiv_mul_add_tmod nanoseconds 1000000000
  have below := Int.tmod_lt_of_pos nanoseconds (show (0 : Int) < 1000000000 by decide)
  have above := Int.lt_tmod_of_pos nanoseconds (show (0 : Int) < 1000000000 by decide)
  -- The rest has the sign of the whole, so that the seconds are rounded toward zero.
  have sameSign : 0 ≤ nanoseconds → 0 ≤ nanoseconds.tmod 1000000000 := Int.tmod_nonneg _
  have sameSignNegated := Int.tmod_nonneg (a := -nanoseconds) 1000000000
  rw [Int.neg_tmod] at sameSignNegated
  refine .cons ⟨?_, ?_⟩ (.cons ⟨?_, ?_⟩ .nil) <;> dsimp only [limit] <;> omega

theorem Duration.restores : ∀ depth, Restores Duration.read Duration.toJson depth := by
  refine Restores.numbers (fun duration : Duration => [duration.seconds, duration.rest]) ?_
  intro numbers duration inRanges found
  split at found
  · next seconds rest =>
      cases found
      have sameTotal :
          ofSeconds (ofSeconds seconds rest).seconds (ofSeconds seconds rest).rest =
            ofSeconds seconds rest := by
        rw [ofSeconds, Duration.seconds, Duration.rest, Int.tdiv_mul_add_tmod]
      exact ⟨Duration.inRanges_parts inRanges, congrArg some sameTotal⟩
  · cases found

@[simp] theorem TimeOfDay.plain_toJson (time : TimeOfDay) : time.toJson.Plain := by
  simp [TimeOfDay.toJson, TimeOfDay.parts]

def TimeOfDay.numbers (time : TimeOfDay) : List Int :=
  [time.hour, time.minute, time.second, time.nanosecond]

theorem TimeOfDay.numbers_of_ofParts? {hour minute second nanosecond : Int} {time : TimeOfDay}
    (made : ofParts? hour minute second nanosecond = some time) :
    time.numbers = [hour, minute, second, nanosecond] := by
  unfold ofParts? at made
  split at made
  · next inRange =>
      cases made
      obtain ⟨hours, -, minutes, -, seconds, -, nanoseconds, -⟩ := inRange
      simp only [TimeOfDay.numbers, Int.toNat_of_nonneg hours, Int.toNat_of_nonneg minutes,
        Int.toNat_of_nonneg seconds, Int.toNat_of_nonneg nanoseconds]
  · cases made

theorem TimeOfDay.restores : ∀ depth, Restores TimeOfDay.read TimeOfDay.toJson depth := by
  refine Restores.numbers TimeOfDay.numbers ?_
  intro numbers time inRanges found
  split at found
  · rw [TimeOfDay.numbers_of_ofParts? found]
    exact ⟨inRanges, found⟩
  · cases found

@[simp] theorem Date.plain_toJson (date : Date) : date.toJson.Plain := by
  simp [Date.toJson, Date.parts]

def Date.numbers (date : Date) : List Int := [date.year, date.dayOfYear]

theorem Date.numbers_of_ofParts? {year dayOfYear : Int} {date : Date}
    (made : ofParts? year dayOfYear = some date) : date.numbers = [year, dayOfYear] := by
  unfold ofParts? at made
  split at made
  · next inRange =>
      cases made
      have notNegative : 0 ≤ dayOfYear := by omega
      simp only [Date.numbers, Int.toNat_of_nonneg notNegative]
  · cases made

theorem Date.restores : ∀ depth, Restores Date.read Date.toJson depth := by
  refine Restores.numbers Date.numbers ?_
  intro numbers date inRanges found
  split at found
  · rw [Date.numbers_of_ofParts? found]
    exact ⟨inRanges, found⟩
  · cases found

@[simp] theorem DateAndTime.plain_toJson (value : DateAndTime) : value.toJson.Plain := by
  simp [DateAndTime.toJson, Date.parts, TimeOfDay.parts]

theorem DateAndTime.restores : ∀ depth, Restores DateAndTime.read DateAndTime.toJson depth := by
  refine Restores.numbers
    (fun value : DateAndTime => value.date.numbers ++ value.time.numbers) ?_
  intro numbers value inRanges found
  split at found
  · obtain ⟨date, madeDate, found⟩ := Option.bind_eq_some_iff.mp found
    obtain ⟨time, madeTime, found⟩ := Option.bind_eq_some_iff.mp found
    cases found
    rw [Date.numbers_of_ofParts? madeDate, TimeOfDay.numbers_of_ofParts? madeTime]
    refine ⟨inRanges, ?_⟩
    simp [madeDate, madeTime]
  · cases found

/-! ## Constants -/

theorem Restores.readOnly {α : Type} {read : Reader α} {write : α → Json}
    (restores : ∀ depth, Restores read write depth) (name : String) :
    ∀ depth, Restores (Constant.readOnly name read) (fun value => .object [(name, write value)])
      depth := by
  refine Restores.record (by simp) (fun value => [write value])
    (fun _ => rfl) ?_
  intro depth fields value found
  split at found
  · obtain ⟨json, -, found⟩ := Option.bind_eq_some_iff.mp found
    exact restores depth found
  · cases found

theorem Restores.readTyped {α : Type} {read : Reader α} {write : α → Json}
    (restores : ∀ depth, Restores read write depth) :
    ∀ depth, Restores (Constant.readTyped read)
      (fun (value, type) =>
        .object [("value", write value), ("data_type", Json.ofOption Tagged.toJson type)])
      depth := by
  refine Restores.record (by decide)
    (fun typed : α × Option Elementary => [write typed.1, Json.ofOption Tagged.toJson typed.2])
    (fun _ => rfl) ?_
  intro depth fields typed found
  split at found
  · obtain ⟨value, readValue, found⟩ := (restores depth).required found
    obtain ⟨type, readType, found⟩ := (Restores.tagged depth).optional (fun _ => nofun) found
    cases found
    simp [readValue, readType]
  · cases found

@[simp] theorem Constant.plain_toJson (constant : Constant) : constant.toJson.Plain := by
  cases constant <;> simp [Constant.toJson]

theorem Constant.restores : ∀ depth, Restores Constant.read Constant.toJson depth := by
  refine Restores.choice ?_
  intro depth tag content constant found
  split at found
  · obtain ⟨⟨value, type⟩, rfl, restored⟩ :=
      (Restores.readTyped SignedToken.restores depth).map found
    exact ⟨_, rfl, restored⟩
  · obtain ⟨token, rfl, restored⟩ := (RealToken.restores depth).map found
    exact ⟨_, rfl, restored⟩
  · obtain ⟨value, rfl, restored⟩ := (Restores.readOnly Restores.tagged "value" depth).map found
    exact ⟨_, rfl, restored⟩
  · obtain ⟨literal, rfl, restored⟩ := (CharString.restores depth).map found
    exact ⟨_, rfl, restored⟩
  · obtain ⟨value, rfl, restored⟩ :=
      (Restores.readOnly Duration.restores "interval" depth).map found
    exact ⟨_, rfl, restored⟩
  · obtain ⟨value, rfl, restored⟩ := (Restores.readOnly TimeOfDay.restores "value" depth).map found
    exact ⟨_, rfl, restored⟩
  · obtain ⟨value, rfl, restored⟩ := (Restores.readOnly Date.restores "value" depth).map found
    exact ⟨_, rfl, restored⟩
  · obtain ⟨value, rfl, restored⟩ :=
      (Restores.readOnly DateAndTime.restores "value" depth).map found
    exact ⟨_, rfl, restored⟩
  · obtain ⟨⟨value, type⟩, rfl, restored⟩ :=
      (Restores.readTyped IntegerToken.restores depth).map found
    exact ⟨_, rfl, restored⟩
  · cases found

/-! ## Addresses -/

theorem Restores.nats {high : Int} {depth : Nat} {json : Json} {values : List Int}
    (found : Reader.list (Reader.int 0 high) depth json = some values) :
    Reader.list (Reader.int 0 high) depth (.array ((values.map Int.toNat).map .nat)) =
      some values := by
  cases depth with
  | zero => cases found
  | succ depth =>
      obtain ⟨items, -, readItems⟩ := Option.bind_eq_some_iff.mp found
      have notNegative : ∀ value ∈ values, 0 ≤ value :=
        Json.forall_of_mapM (fun _ _ read => (Reader.int_eq_some.mp read).2.1) readItems
      have sameJson : (values.map Int.toNat).map Json.nat = values.map Json.int := by
        rw [List.map_map]
        exact List.map_congr_left fun value member => Json.nat_toNat (notNegative value member)
      rw [sameJson]
      exact (Restores.int 0 high depth).list_succ found

@[simp] theorem Address.plain_toJson (address : Address) : address.toJson.Plain := by
  simp [Address.toJson]

theorem Address.restores : ∀ depth, Restores Address.read Address.toJson depth := by
  refine Restores.record (by decide)
    (fun address : Address =>
      [Tagged.toJson address.area, Tagged.toJson address.size,
        .array (address.parts.map .nat)]) (fun _ => rfl) ?_
  intro depth fields address found
  split at found
  · obtain ⟨area, readArea, found⟩ := (Restores.tagged depth).required found
    obtain ⟨size, readSize, found⟩ := (Restores.tagged depth).required found
    obtain ⟨parts, readParts, found⟩ := Option.bind_eq_some_iff.mp found
    obtain ⟨json, -, readParts⟩ := Option.bind_eq_some_iff.mp readParts
    cases found
    have readAgain : Reader.required (Reader.list (Reader.int 0 4294967295)) depth
        (some (.array ((parts.map Int.toNat).map .nat))) = some parts := Restores.nats readParts
    simp [readArea, readSize, readAgain, -List.map_map]
  · cases found

end StructuredText
