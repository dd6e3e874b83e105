import Mathlib.Data.List.Basic
import Snippet.Image.Written
import Snippet.Proofs.Json.RoundTrip

/-!
Images come back from their written form, bit for bit. Main statement: decoding the text of an image gives
the image if it is of the current version, and else tells the version.
-/

namespace Snippet

namespace Json

@[simp]
theorem uint32?_ofUInt32 (number : UInt32) : (ofUInt32 number).uint32? = some number := by
  rw [ofUInt32, uint32?, unsigned?_int number.toNat_lt]
  simp

@[simp]
theorem uint16?_ofUInt16 (number : UInt16) : (ofUInt16 number).uint16? = some number := by
  rw [ofUInt16, uint16?, unsigned?_int number.toNat_lt]
  simp

@[simp]
theorem texts?_ofTexts (texts : List String) : list? text? (ofTexts texts) = some texts :=
  list?_map text? string (fun _ => rfl) texts

@[simp]
theorem optionalField?_ofText? (text : Option String) :
    optionalField? text? (some (ofText? text)) = some text := by
  cases text <;> rfl

end Json

@[simp]
theorem Constant.ofJson?_toJson (value : Constant) : Constant.ofJson? value.toJson = some value := by
  cases value with
  | null | bool _ | text _ => rfl
  | int value =>
    have returns := Json.intIn?_int value.minValue_le_toInt value.toInt_le
    simp only [toJson, Json.variant, ofJson?, Json.variant?, returns, bind, Option.bind, Option.map_some,
      Int32.ofInt_toInt]
  | long value =>
    have returns := Json.intIn?_int value.minValue_le_toInt value.toInt_le
    simp only [toJson, Json.variant, ofJson?, Json.variant?, returns, bind, Option.bind, Option.map_some,
      Int64.ofInt_toInt]
  | double bits =>
    simp [toJson, Json.variant, ofJson?, Json.variant?, Json.unsigned?_int bits.toNat_lt]

@[simp]
theorem PassMode.ofJson?_code (mode : PassMode) : PassMode.ofJson? (.string mode.code) = some mode := by
  cases mode <;> rfl

theorem Instruction.ofJson?_variant (name : String) {operand : Json} (content : operand ≠ .null) :
    Instruction.ofJson? (.variant name operand) = Instruction.applied? name operand := by
  cases operand <;> first | rfl | contradiction

@[simp]
theorem Instruction.ofJson?_toJson (instruction : Instruction) :
    Instruction.ofJson? instruction.toJson = some instruction := by
  have index (number : UInt32) : Json.ofUInt32 number ≠ .null := nofun
  have slot (number : UInt16) : Json.ofUInt16 number ≠ .null := nofun
  cases instruction with
  | operate operation => cases operation <;> rfl
  | convert conversion => cases conversion <;> rfl
  | builtin member => cases member <;> rfl
  | duplicate | drop | negate | not | giveBack | giveBackNothing => rfl
  | _ => simp [toJson, ofJson?_variant, index, slot, applied?]

/-! ### Records -/

@[simp]
theorem MethodSignature.ofJson?_toJson (signature : MethodSignature) :
    MethodSignature.ofJson? signature.toJson = some signature := by
  have parameters (list : List SignatureParameter) := Json.list?_map SignatureParameter.ofJson?
    (fun parameter => .object [("name", .string parameter.name), ("mode", .string parameter.mode.code),
      ("type_name", .string parameter.typeName)]) (fun parameter => by
        simp [SignatureParameter.ofJson?, Json.record?, Json.member?, Json.field?, Json.text?]) list
  simp [toJson, ofJson?, Json.record?, Json.member?, Json.field?, parameters]

@[simp]
theorem Import.ofJson?_toJson (wanted : Import) : Import.ofJson? wanted.toJson = some wanted := by
  cases wanted with
  | function imported =>
    simp [toJson, ofJson?, Json.variant, Json.variant?, FunctionImport.ofJson?, Json.record?, Json.member?,
      Json.field?, Json.text?]
  | type typeName =>
    simp [toJson, ofJson?, Json.variant, Json.variant?, Json.record?, Json.member?, Json.field?, Json.text?]

@[simp]
theorem ClassImage.ofJson?_toJson (type : ClassImage) : ClassImage.ofJson? type.toJson = some type := by
  have methods := Json.list?_map Json.uint32? .ofUInt32 Json.uint32?_ofUInt32 type.methods
  simp [toJson, ofJson?, Json.record?, Json.member?, Json.field?, Json.text?, Json.bool?, methods]

@[simp]
theorem MethodImage.ofJson?_toJson (method : MethodImage) : MethodImage.ofJson? method.toJson = some method := by
  have code := Json.list?_map Instruction.ofJson? (·.toJson) Instruction.ofJson?_toJson method.code
  simp [toJson, ofJson?, Json.record?, Json.member?, Json.field?, Json.text?, Json.bool?, code]

namespace Image

theorem ofJson?_toJson (image : Image) : ofJson? image.toJson = some image := by
  have constants := Json.list?_map Constant.ofJson? (·.toJson) Constant.ofJson?_toJson image.constants
  have imports := Json.list?_map Import.ofJson? (·.toJson) Import.ofJson?_toJson image.imports
  have classes := Json.list?_map ClassImage.ofJson? (·.toJson) ClassImage.ofJson?_toJson image.classes
  have methods := Json.list?_map MethodImage.ofJson? (·.toJson) MethodImage.ofJson?_toJson image.methods
  simp [toJson, ofJson?, Json.record?, Json.member?, Json.field?, Json.text?, constants, imports, classes, methods]

/-- An image of the current version comes back from its written form. -/
theorem decode_toJson {image : Image} (current : image.formatVersion = currentVersion) :
    decode image.toJson = .ok image := by
  rw [decode, ofJson?_toJson]
  exact if_pos (beq_iff_eq.2 current)

end Image

/-! ### Texts of images -/

namespace Json

@[simp]
theorem isExact_ofTexts (texts : List String) : (ofTexts texts).IsExact :=
  allExact_map string (fun _ => trivial) texts

@[simp]
theorem isExact_ofText? (text : Option String) : (ofText? text).IsExact := by
  cases text <;> trivial

theorem isExact_variant (name : String) {content : Json} (exact : content.IsExact) : (variant name content).IsExact :=
  ⟨exact, trivial⟩

end Json

@[simp]
theorem Constant.isExact_toJson (value : Constant) : value.toJson.IsExact := by
  cases value with
  | null => trivial
  | _ => exact Json.isExact_variant _ trivial

@[simp]
theorem Instruction.isExact_toJson (instruction : Instruction) : instruction.toJson.IsExact := by
  cases instruction with
  | duplicate | drop | operate _ | negate | not | giveBack | giveBackNothing => trivial
  | _ => exact Json.isExact_variant _ trivial

@[simp]
theorem MethodSignature.isExact_toJson (signature : MethodSignature) : signature.toJson.IsExact := by
  refine ⟨Json.isExact_map _ _ fun parameter => ?_, Json.isExact_ofText? signature.result, trivial⟩
  exact ⟨trivial, trivial, trivial, trivial⟩

@[simp]
theorem Import.isExact_toJson (wanted : Import) : wanted.toJson.IsExact := by
  cases wanted with
  | function imported =>
    refine Json.isExact_variant _ ⟨trivial, trivial, ?_, ?_, trivial⟩
    · exact Json.isExact_ofTexts imported.parameters
    · exact Json.isExact_ofText? imported.result
  | type typeName => exact Json.isExact_variant _ ⟨trivial, trivial⟩

@[simp]
theorem ClassImage.isExact_toJson (type : ClassImage) : type.toJson.IsExact :=
  ⟨trivial, trivial, trivial, Json.isExact_map _ _ fun _ => trivial, trivial⟩

@[simp]
theorem MethodImage.isExact_toJson (method : MethodImage) : method.toJson.IsExact := by
  refine ⟨trivial, trivial, trivial, trivial, method.signature.isExact_toJson, trivial, ?_, trivial⟩
  exact Json.isExact_map _ _ Instruction.isExact_toJson

namespace Image

theorem isExact_toJson (image : Image) : image.toJson.IsExact := by
  refine ⟨trivial, trivial, ?_, ?_, ?_, ?_, ?_, trivial⟩
  · exact Json.isExact_map _ _ Constant.isExact_toJson
  · exact Json.isExact_ofTexts image.strings
  · exact Json.isExact_map _ _ Import.isExact_toJson
  · exact Json.isExact_map _ _ ClassImage.isExact_toJson
  · exact Json.isExact_map _ _ MethodImage.isExact_toJson

/-- The text of an image denotes its written form. -/
theorem read?_encode (image : Image) : Json.read? image.encode = some image.toJson :=
  Json.read?_compact image.isExact_toJson

/-- Different images have different texts, whatever their versions. -/
theorem encode_injective : Function.Injective encode := by
  intro first second same
  have sameJson : some first.toJson = some second.toJson := by
    rw [← read?_encode, ← read?_encode, same]
  have sameImage := congrArg (Option.bind · ofJson?) sameJson
  simpa only [Option.bind_some, ofJson?_toJson, Option.some.injEq] using sameImage

/-- What decodes is of the current version. -/
theorem formatVersion_of_decode {json : Json} {image : Image} (decoded : decode json = .ok image) :
    image.formatVersion = currentVersion := by
  unfold decode at decoded
  split at decoded
  · cases decoded
  · split at decoded
    · next current =>
      cases decoded
      exact beq_iff_eq.1 current
    · cases decoded

theorem formatVersion_of_decodeText {text : String} {image : Image} (decoded : decodeText text = .ok image) :
    image.formatVersion = currentVersion := by
  unfold decodeText at decoded
  split at decoded
  · cases decoded
  · exact formatVersion_of_decode decoded

theorem decodeText_encode (image : Image) :
    decodeText image.encode =
      if image.formatVersion = currentVersion then .ok image else .error (.version image.formatVersion) := by
  rw [decodeText, read?_encode]
  by_cases current : image.formatVersion = currentVersion
  · rw [if_pos current]
    exact decode_toJson current
  · have isOther : ¬(image.formatVersion == currentVersion) = true := fun same => current (beq_iff_eq.1 same)
    rw [if_neg current]
    show decode image.toJson = _
    rw [decode, ofJson?_toJson]
    dsimp only
    rw [if_neg isOther]

/-- The text of an image gives the image back, bit for bit, exactly if the image is of the current version, and
whatever text an image was decoded from, its own text gives it back. -/
theorem codec_keeps :
    (∀ image : Image, decodeText image.encode =
      if image.formatVersion = currentVersion then .ok image else .error (.version image.formatVersion)) ∧
    ∀ text : String, (decodeText text >>= fun image => decodeText image.encode) = decodeText text := by
  refine ⟨decodeText_encode, fun text => ?_⟩
  cases decoded : decodeText text with
  | error fault => rfl
  | ok image =>
    simp only [bind, Except.bind]
    rw [decodeText_encode, if_pos (formatVersion_of_decodeText decoded)]

end Image

end Snippet
