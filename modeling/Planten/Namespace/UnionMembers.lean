import Planten.Namespace.Plans
import Planten.PseudoFs.ServiceFiles

/-
  Where `10_ns` mounts the members of a union.

  Each member is mounted in a temporary directory, under the
  last piece of its path, and the directory is mounted on
  the target.  So members whose paths end alike are mounted
  over one another, and one whose path ends with a slash or
  with dots is mounted over the directory or outside of it.

  Key definitions include:
    * `unionTarget`
    * `unionMounts`
    * `hostPlace`
    * `OwnPlaces`
    * `PlainEndings`

  Key theorems include:
    * `hostPlace_unionTarget`
    * `ownPlaces_iff`
-/

------------------------------------------------------------
-- Mounts of a Union
------------------------------------------------------------

namespace Planten

/- `path.split('/').last().unwrap()`. -/
def lastPiece (path : String) : String :=
  String.ofList ((path.toList.splitOn '/').getLast
    (List.splitOn_ne_nil '/' path.toList))

def unionTarget (tmpDir path : String) : String :=
  joinPath tmpDir (lastPiece path)

/- A bind mount: what is mounted, and where. -/
structure BindMount where
  source : String
  target : String
deriving DecidableEq, Repr

/- The members are mounted first, then the directory. -/
def unionMounts
    (tmpDir new : String)
    (paths : List String) : List BindMount :=
  paths.map (fun path => ⟨path, unionTarget tmpDir path⟩) ++
    [⟨tmpDir, new⟩]

end Planten

------------------------------------------------------------
-- Places of the Host
------------------------------------------------------------

namespace Planten

def stepPlace
    (place : List String)
    (name : String) : List String :=
  if name = "." then
    place
  else if name = ".." then
    place.dropLast
  else
    place ++ [name]

/- Where a path of the host leads, from the root. -/
def hostPlace (path : String) : List String :=
  (components path).foldl stepPlace []

def StrictlyInside (dir file : String) : Prop :=
  ∃ name rest, hostPlace file = hostPlace dir ++ name :: rest

/-
  Every member of the union is mounted in the directory, and
  no two members in the same place.
-/
structure OwnPlaces
    (tmpDir new : String)
    (paths : List String) : Prop where
  distinct :
    ((unionMounts tmpDir new paths).dropLast.map
      (fun mount => hostPlace mount.target)).Nodup
  inside :
    ∀ mount ∈ (unionMounts tmpDir new paths).dropLast,
      StrictlyInside tmpDir mount.target

/- The paths end in different names, and none in dots. -/
def PlainEndings (paths : List String) : Prop :=
  (paths.map lastPiece).Nodup ∧
    ∀ path ∈ paths, lastPiece path ∉ ["", ".", ".."]

instance (paths : List String) :
    Decidable (PlainEndings paths) := by
  unfold PlainEndings
  infer_instance

end Planten

------------------------------------------------------------
-- Last Pieces
------------------------------------------------------------

namespace Planten

theorem slashFree_lastPiece (path : String) :
    '/' ∉ (lastPiece path).toList := by
  rw [lastPiece, String.toList_ofList]
  exact Splitting.not_mem_of_mem_splitOn (List.getLast_mem _)

/- The piece is one step further, unless it is empty. -/
theorem hostPlace_unionTarget (tmpDir path : String) :
    hostPlace (unionTarget tmpDir path) =
      if lastPiece path = "" then
        hostPlace tmpDir
      else
        stepPlace (hostPlace tmpDir) (lastPiece path) := by
  unfold hostPlace unionTarget
  split
  · rename_i hEmpty
    rw [hEmpty, joinPath, if_neg (by decide)]
    split
    · rw [String.append_empty]
    · rw [components_append_slash, components_empty,
        List.append_nil]
  · rename_i hNonempty
    rw [components_joinPath tmpDir hNonempty
      (slashFree_lastPiece path), List.foldl_append]
    rfl

theorem hostPlace_of_plain
    {tmpDir path : String}
    (hPlain : lastPiece path ∉ ["", ".", ".."]) :
    hostPlace (unionTarget tmpDir path) =
      hostPlace tmpDir ++ [lastPiece path] := by
  simp only [List.mem_cons, List.not_mem_nil, or_false,
    not_or] at hPlain
  rcases hPlain with ⟨hEmpty, hDot, hDots⟩
  rw [hostPlace_unionTarget, if_neg hEmpty, stepPlace,
    if_neg hDot, if_neg hDots]

/- Only such a piece leads into the directory. -/
theorem strictlyInside_unionTarget (tmpDir path : String) :
    StrictlyInside tmpDir (unionTarget tmpDir path) ↔
      lastPiece path ∉ ["", ".", ".."] := by
  constructor
  · rintro ⟨name, rest, hPlace⟩ hMem
    have hLonger :
        (hostPlace tmpDir).length <
          (hostPlace (unionTarget tmpDir path)).length := by
      rw [hPlace, List.length_append, List.length_cons]
      omega
    rw [hostPlace_unionTarget] at hLonger
    simp only [List.mem_cons, List.not_mem_nil,
      or_false] at hMem
    rcases hMem with hEmpty | hDot | hDots
    · rw [if_pos hEmpty] at hLonger
      exact lt_irrefl _ hLonger
    · rw [hDot, if_neg (by decide), stepPlace,
        if_pos rfl] at hLonger
      exact lt_irrefl _ hLonger
    · rw [hDots, if_neg (by decide), stepPlace,
        if_neg (by decide), if_pos rfl,
        List.length_dropLast] at hLonger
      omega
  · intro hPlain
    exact ⟨lastPiece path, [], hostPlace_of_plain hPlain⟩

end Planten

------------------------------------------------------------
-- Own Places
------------------------------------------------------------

namespace Planten

@[simp] theorem dropLast_unionMounts
    (tmpDir new : String)
    (paths : List String) :
    (unionMounts tmpDir new paths).dropLast =
      paths.map (fun path =>
        ⟨path, unionTarget tmpDir path⟩) :=
  List.dropLast_concat

theorem inside_unionMounts
    (tmpDir new : String)
    (paths : List String) :
    (∀ mount ∈ (unionMounts tmpDir new paths).dropLast,
        StrictlyInside tmpDir mount.target) ↔
      ∀ path ∈ paths, lastPiece path ∉ ["", ".", ".."] := by
  rw [dropLast_unionMounts, List.forall_mem_map]
  simp only [strictlyInside_unionTarget]

/- Plain pieces are names in the directory. -/
theorem places_unionMounts
    {paths : List String}
    (hPlain :
      ∀ path ∈ paths, lastPiece path ∉ ["", ".", ".."])
    (tmpDir new : String) :
    (unionMounts tmpDir new paths).dropLast.map
        (fun mount => hostPlace mount.target) =
      (paths.map lastPiece).map
        (fun name => hostPlace tmpDir ++ [name]) := by
  rw [dropLast_unionMounts, List.map_map, List.map_map]
  apply List.map_congr_left
  intro path hMem
  simp only [Function.comp_apply]
  rw [hostPlace_of_plain (hPlain path hMem)]

theorem plainEndings_of_ownPlaces
    {tmpDir new : String}
    {paths : List String}
    (hOwn : OwnPlaces tmpDir new paths) :
    PlainEndings paths := by
  have hPlain :=
    (inside_unionMounts tmpDir new paths).mp hOwn.inside
  have hDistinct := hOwn.distinct
  rw [places_unionMounts hPlain] at hDistinct
  exact ⟨List.Nodup.of_map _ hDistinct, hPlain⟩

/-
  The members of a union have places of their own just if
  their paths end in different names.
-/
theorem ownPlaces_iff
    (tmpDir new : String)
    (paths : List String) :
    OwnPlaces tmpDir new paths ↔ PlainEndings paths := by
  constructor
  · exact plainEndings_of_ownPlaces
  · rintro ⟨hNodup, hPlain⟩
    refine ⟨?_, (inside_unionMounts tmpDir new paths).mpr
      hPlain⟩
    rw [places_unionMounts hPlain]
    apply hNodup.map
    intro name name' hEq
    exact List.singleton_inj.mp
      (List.append_cancel_left hEq)

/- Two directories of one name are mounted in one place. -/
theorem not_ownPlaces_of_equal_names :
    ¬ ∀ tmpDir new paths,
        paths.Nodup →
          (∀ path ∈ paths, path.toList.head? = some '/') →
            OwnPlaces tmpDir new paths := by
  intro hAll
  have hOwn :=
    hAll "/tmp/.tmpA1" "/bin" ["/a/bin", "/b/bin"]
      (by decide) (by decide)
  exact absurd (plainEndings_of_ownPlaces hOwn) (by decide)

end Planten
