import Raster.Proofs.Paint.Bordering
import Raster.Proofs.Paint.Placing

/-!
# Textures of one texel

A repeating texture of a single texel has that texel everywhere: its border repeats it, every
coordinate folds into it, and interpolation between equal colors changes nothing.
-/

namespace Raster

namespace Argb

/-- Between equal channels there is only this one. -/
theorem lerp_self (channel : Nat) (share : Int) : lerp channel channel share = channel := by
  unfold lerp
  rw [Int.sub_self, Int.zero_mul]
  omega

theorem lerpWord_self {word : Nat} (bound : word < 4294967296) (share : Int) :
    lerpWord word word share = word := by
  simp only [lerpWord, lerp_self]
  exact pack_channels bound

end Argb

namespace Texture

/-- The texture repeats one texel, which its border holds too. -/
structure Tiles (texture : Texture) (argb : Nat) : Prop where
  width : texture.width = 1
  height : texture.height = 1
  repeats : texture.repeats = true
  texels : texture.texels = Array.replicate 9 argb

/-- Neither a drawing transformation nor a quality changes the texels. -/
theorem Tiles.draw {texture : Texture} {argb : Nat} (tiles : texture.Tiles argb)
    (drawing : Affine) : (texture.draw drawing).Tiles argb :=
  ⟨tiles.width, tiles.height, tiles.repeats, tiles.texels⟩

theorem Tiles.setQuality {texture : Texture} {argb : Nat} (tiles : texture.Tiles argb)
    (quality : Int) : (texture.setQuality quality).Tiles argb :=
  ⟨tiles.width, tiles.height, tiles.repeats, tiles.texels⟩

/-- A repeating texture that is built from one texel repeats it. -/
theorem tiles_of_new? {data : Array Nat} {stride : Nat} {toUser : Affine} {texture : Texture}
    (built : new? data 1 1 stride true toUser = .ok (.ok texture)) :
    texture.Tiles (data.getD 0 0) := by
  have copied : copiedRows 1 1 = 3 := rfl
  have source : ∀ index ∈ List.range 3, borderSource true 1 index = 0 := by decide
  have row : ∀ index ∈ List.range 3, ((List.range (1 + 2)).map fun column =>
      data.getD (Word.wrapIndex (borderSource true 1 index * stride) +
        borderSource true 1 column) 0) = List.replicate 3 (data.getD 0 0) := by
    intro index member
    rw [source index member, Nat.zero_mul]
    apply List.eq_replicate_of_mem
    intro texel shown
    obtain ⟨column, inside, rfl⟩ := List.mem_map.mp shown
    rw [source column inside]
    rfl
  obtain ⟨rfl, _⟩ := eq_ofRows_of_new? built
  refine ⟨rfl, rfl, rfl, ?_⟩
  rw [ofRows, borderedTexels, borderedRows, copied, List.map_congr_left row]
  rfl

/-- The texels around a position inside the image are there. -/
theorem Tiles.texel?_eq {texture : Texture} {argb : Nat} (tiles : texture.Tiles argb)
    {column row : Int} (columns : -1 ≤ column ∧ column ≤ 1) (rows : -1 ≤ row ∧ row ≤ 1) :
    texture.texel? column row = some argb := by
  have limit : Word.indexLimit = 18446744073709551616 := rfl
  simp only [texel?, tiles.width, tiles.texels]
  rw [Word.wrapIndex_eq_self (by omega), Array.getElem?_replicate, if_pos (by omega)]

/-- Every position has the one color. -/
theorem Tiles.sample?_eq {texture : Texture} {argb : Nat} (tiles : texture.Tiles argb)
    (bound : argb < 4294967296) (x y : Int) : texture.sample? x y = some argb := by
  have folded : ∀ coordinate : Int,
      0 ≤ coordinate % (((1 : Nat) : Int) * 65536) ∧
        coordinate % (((1 : Nat) : Int) * 65536) < 65536 := by
    omega
  simp only [sample?, fold?, tiles.repeats, tiles.width, tiles.height, if_true]
  have column := folded x
  have row := folded y
  generalize x % (((1 : Nat) : Int) * 65536) = x at column
  generalize y % (((1 : Nat) : Int) * 65536) = y at row
  split
  · have left : -1 ≤ (x - Fixed.half) / 65536 ∧ (x - Fixed.half) / 65536 + 1 ≤ 1 := by
      unfold Fixed.half
      omega
    have top : -1 ≤ (y - Fixed.half) / 65536 ∧ (y - Fixed.half) / 65536 + 1 ≤ 1 := by
      unfold Fixed.half
      omega
    simp only [interpolate?]
    rw [tiles.texel?_eq ⟨left.1, by omega⟩ ⟨top.1, by omega⟩,
      tiles.texel?_eq ⟨by omega, left.2⟩ ⟨top.1, by omega⟩,
      tiles.texel?_eq ⟨left.1, by omega⟩ ⟨by omega, top.2⟩,
      tiles.texel?_eq ⟨by omega, left.2⟩ ⟨by omega, top.2⟩]
    simp only [Option.bind_eq_bind, Option.bind_some, Argb.lerpWord_self bound]
    rfl
  · apply tiles.texel?_eq <;> omega

/-- Rows of the texture are of the one color. -/
theorem Tiles.row?_eq {texture : Texture} {argb : Nat} (tiles : texture.Tiles argb)
    (bound : argb < 4294967296) (sound : texture.isDegenerate = false) (x y : Int)
    (count : Nat) : texture.row? x y count = some (List.replicate count argb) := by
  obtain ⟨inverse, present⟩ := Option.isSome_iff_exists.mp (Option.isNone_eq_false_iff.mp sound)
  simp only [Texture.row?_eq present, tiles.sample?_eq bound]
  rw [mapM_eq_some_iff, List.map_const', List.length_range, List.map_replicate]

end Texture

end Raster
