import WadCatalog.ByteSource.Any

/-
  Sources that answer alike.

  A container learns of a source nothing but its answers.  So a source may stand for another one, of
  another type and with another state, as long as both give the same answers, now and after any
  calls.

  1. **What it means** (`Mirrors`).  There is a relation between the states of the two sources under
     which their answers are the same, and which no call leads out of.  To be mirrored is such a
     relation itself (`isMirroring_mirrors`), so it holds of what a call leaves behind
     (`Mirrors.readAt`).
  2. **Which sources are** (`mirrors_stream`, `mirrors_any`).  A stream is mirrored among sources of
     any kind by itself.  A source of any type is mirrored by its box; the relation is that both have
     had the same calls.
-/

namespace WadCatalog

namespace ByteSource

/-! ## What it means -/

section Mirrors

variable {σ τ : Type} [ByteSource σ] [ByteSource τ]

/-- That related sources give the same answers and stay related. -/
structure IsMirroring (related : σ → τ → Prop) : Prop where
  read : ∀ source image count, related source image →
    (ByteSource.read image count).1 = (ByteSource.read source count).1 ∧
      related (ByteSource.read source count).2 (ByteSource.read image count).2
  seek : ∀ source image position, related source image →
    (ByteSource.seek image position).1 = (ByteSource.seek source position).1 ∧
      related (ByteSource.seek source position).2 (ByteSource.seek image position).2
  size_eq : ∀ source image, related source image → size image = size source
  isValid_eq : ∀ source image, related source image → isValid image = isValid source

/-- That a source is mirrored by another one: both give the same answers, whatever calls there are. -/
def Mirrors (source : σ) (image : τ) : Prop :=
  ∃ related : σ → τ → Prop, IsMirroring related ∧ related source image

/-- A source goes on being mirrored. -/
theorem isMirroring_mirrors : IsMirroring (Mirrors : σ → τ → Prop) where
  read source image count h := by
    obtain ⟨related, hmirroring, hrelated⟩ := h
    obtain ⟨hbytes, hafter⟩ := hmirroring.read source image count hrelated
    exact ⟨hbytes, related, hmirroring, hafter⟩
  seek source image position h := by
    obtain ⟨related, hmirroring, hrelated⟩ := h
    obtain ⟨hmoved, hafter⟩ := hmirroring.seek source image position hrelated
    exact ⟨hmoved, related, hmirroring, hafter⟩
  size_eq source image h := by
    obtain ⟨related, hmirroring, hrelated⟩ := h
    exact hmirroring.size_eq source image hrelated
  isValid_eq source image h := by
    obtain ⟨related, hmirroring, hrelated⟩ := h
    exact hmirroring.isValid_eq source image hrelated

/-- The image of an image is an image. -/
theorem Mirrors.trans {υ : Type} [ByteSource υ] {source : σ} {image : τ} {second : υ}
    (h : Mirrors source image) (hsecond : Mirrors image second) : Mirrors source second := by
  refine ⟨fun source second => ∃ image : τ, Mirrors source image ∧ Mirrors image second,
    ⟨?_, ?_, ?_, ?_⟩, image, h, hsecond⟩
  · rintro source second count ⟨image, h, hsecond⟩
    obtain ⟨hbytes, hafter⟩ := isMirroring_mirrors.read source image count h
    obtain ⟨hsame, hthen⟩ := isMirroring_mirrors.read image second count hsecond
    exact ⟨hsame.trans hbytes, _, hafter, hthen⟩
  · rintro source second position ⟨image, h, hsecond⟩
    obtain ⟨hmoved, hafter⟩ := isMirroring_mirrors.seek source image position h
    obtain ⟨hsame, hthen⟩ := isMirroring_mirrors.seek image second position hsecond
    exact ⟨hsame.trans hmoved, _, hafter, hthen⟩
  · rintro source second ⟨image, h, hsecond⟩
    exact (isMirroring_mirrors.size_eq image second hsecond).trans
      (isMirroring_mirrors.size_eq source image h)
  · rintro source second ⟨image, h, hsecond⟩
    exact (isMirroring_mirrors.isValid_eq image second hsecond).trans
      (isMirroring_mirrors.isValid_eq source image h)

section Calls

variable {source : σ} {image : τ} (h : Mirrors source image)
include h

theorem Mirrors.size_eq : size image = size source := isMirroring_mirrors.size_eq source image h

theorem Mirrors.isValid_eq : isValid image = isValid source :=
  isMirroring_mirrors.isValid_eq source image h

theorem Mirrors.read (count : Nat) :
    (ByteSource.read image count).1 = (ByteSource.read source count).1 ∧
      Mirrors (ByteSource.read source count).2 (ByteSource.read image count).2 :=
  isMirroring_mirrors.read source image count h

theorem Mirrors.seek (position : Nat) :
    (ByteSource.seek image position).1 = (ByteSource.seek source position).1 ∧
      Mirrors (ByteSource.seek source position).2 (ByteSource.seek image position).2 :=
  isMirroring_mirrors.seek source image position h

/-- A read at a position gives the same, and leaves a source that is mirrored. -/
theorem Mirrors.readAt (position count : Nat) :
    (readAt image position count).1 = (readAt source position count).1 ∧
      Mirrors (readAt source position count).2 (readAt image position count).2 := by
  obtain ⟨hmoved, hafter⟩ := h.seek position
  unfold ByteSource.readAt
  generalize ByteSource.seek source position = outcome at hmoved hafter ⊢
  generalize ByteSource.seek image position = reflected at hmoved hafter ⊢
  obtain ⟨moved, later⟩ := outcome
  obtain ⟨same, laterImage⟩ := reflected
  cases hmoved
  cases moved with
  | true => exact hafter.read count
  | false => exact ⟨rfl, hafter⟩

end Calls

/-- A source is mirrored by what it is embedded as, if the embedding goes along with its calls. -/
theorem mirrors_of_embed (embed : σ → τ)
    (hread : ∀ source count, ByteSource.read (embed source) count =
      ((ByteSource.read source count).1, embed (ByteSource.read source count).2))
    (hseek : ∀ source position, ByteSource.seek (embed source) position =
      ((ByteSource.seek source position).1, embed (ByteSource.seek source position).2))
    (hsize : ∀ source, size (embed source) = size source)
    (hvalid : ∀ source, isValid (embed source) = isValid source) (source : σ) :
    Mirrors source (embed source) := by
  refine ⟨fun source image => image = embed source, ⟨?_, ?_, ?_, ?_⟩, rfl⟩
  · rintro source _ count rfl
    rw [hread]
    exact ⟨rfl, rfl⟩
  · rintro source _ position rfl
    rw [hseek]
    exact ⟨rfl, rfl⟩
  · rintro source _ rfl
    exact hsize source
  · rintro source _ rfl
    exact hvalid source

end Mirrors

end ByteSource

/-! ## Which sources are -/

namespace BoxedSource

variable {σ : Type} [ByteSource σ]

/-- Calls change neither the size nor the validity of a source. -/
theorem size_after_isValid_after (source : σ) (calls : List SourceCall) :
    ByteSource.size (after source calls) = ByteSource.size source ∧
      ByteSource.isValid (after source calls) = ByteSource.isValid source := by
  induction calls with
  | nil => exact ⟨rfl, rfl⟩
  | cons call earlier ih =>
    cases call with
    | read count => exact ⟨(ByteSource.size_read _ _).trans ih.1,
        (ByteSource.isValid_read _ _).trans ih.2⟩
    | seek position => exact ⟨(ByteSource.size_seek _ _).trans ih.1,
        (ByteSource.isValid_seek _ _).trans ih.2⟩

/-- A source is mirrored by its box. -/
theorem mirrors_box (source : σ) : ByteSource.Mirrors source (box source) := by
  refine ⟨fun later image => ∃ calls, later = after source calls ∧
    image = { box source with calls }, ⟨?_, ?_, ?_, ?_⟩, [], rfl, rfl⟩
  · rintro _ _ count ⟨calls, rfl, rfl⟩
    exact ⟨rfl, .read count :: calls, rfl, rfl⟩
  · rintro _ _ position ⟨calls, rfl, rfl⟩
    exact ⟨rfl, .seek position :: calls, rfl, rfl⟩
  · rintro _ _ ⟨calls, rfl, rfl⟩
    exact (size_after_isValid_after source calls).1.symm
  · rintro _ _ ⟨calls, rfl, rfl⟩
    exact (size_after_isValid_after source calls).2.symm

end BoxedSource

namespace AnySource

theorem mirrors_stream (stream : Stream) : ByteSource.Mirrors stream (AnySource.stream stream) :=
  ByteSource.mirrors_of_embed AnySource.stream (fun _ _ => rfl) (fun _ _ => rfl) (fun _ => rfl)
    (fun _ => rfl) stream

/-- **A source of any type** is mirrored by one of those that a container is opened over. -/
theorem mirrors_any {σ : Type} [ByteSource σ] (source : σ) :
    ByteSource.Mirrors source (AnySource.boxed (.box source)) :=
  (BoxedSource.mirrors_box source).trans
    (ByteSource.mirrors_of_embed AnySource.boxed (fun _ _ => rfl) (fun _ _ => rfl) (fun _ => rfl)
      (fun _ => rfl) _)

end AnySource

end WadCatalog
