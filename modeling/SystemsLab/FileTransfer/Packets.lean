import SystemsLab.CLib.Bytes

namespace SystemsLab.FileTransfer

open CLib

def maxLine : ℕ := 80

inductive Operation where
  | sendFileName
  | ack
  | sendFileData
  | endOfFile
deriving DecidableEq

def Operation.value : Operation → UInt32
  | .sendFileName => 0
  | .ack => 1
  | .sendFileData => 2
  | .endOfFile => 3

structure Data where
  operation : UInt32
  data : Bytes
  size : UInt32
  length_data : data.length = maxLine
deriving DecidableEq

/-- `sizeof(Data)`, a packed structure. -/
def dataSize : ℕ := 4 + maxLine + 4

/-- Also `ntohl`. -/
def htonl (n : UInt32) : UInt32 := UInt32.ofNat (ofLeBytes (leBytes 4 n.toNat).reverse)

def serializeData (data : Data) : Data :=
  { data with operation := htonl data.operation, size := htonl data.size }

def deserializeData (data : Data) : Data :=
  { data with operation := htonl data.operation, size := htonl data.size }

def Data.memory (data : Data) : Bytes :=
  leBytes 4 data.operation.toNat ++ data.data ++ leBytes 4 data.size.toNat

def Data.ofMemory (b : Bytes) (h : b.length = dataSize) : Data where
  operation := UInt32.ofNat (ofLeBytes (b.take 4))
  data := (b.drop 4).take maxLine
  size := UInt32.ofNat (ofLeBytes ((b.drop 4).drop maxLine))
  length_data := by
    have hsize : dataSize = 4 + maxLine + 4 := rfl
    simp only [List.length_take, List.length_drop]
    omega

def Data.bytes (data : Data) : Bytes := (serializeData data).memory

/-- After `memset`, with an operation. -/
def Data.zeroed (operation : Operation) : Data where
  operation := operation.value
  data := List.replicate maxLine 0
  size := 0
  length_data := List.length_replicate

/-- The packet with a file name, as `snprintf` puts it over the zeros. -/
def fileNameData (fileName : Bytes) : Data where
  operation := Operation.sendFileName.value
  data := fileName.take (maxLine - 1) ++ List.replicate (maxLine - (fileName.take (maxLine - 1)).length) 0
  size := UInt32.ofNat fileName.length
  length_data := by
    simp only [List.length_append, List.length_take, List.length_replicate]
    omega

/-- `n_read` bytes are read to the front of the data, and the others stay. -/
def Data.fill (data : Data) (bytes : Bytes) (h : bytes.length ≤ maxLine) : Data where
  operation := Operation.sendFileData.value
  data := bytes ++ data.data.drop bytes.length
  size := UInt32.ofNat bytes.length
  length_data := by
    rw [List.length_append, List.length_drop, data.length_data]
    omega

variable {data : Data} {fileName bytes : Bytes}

lemma ofLeBytes_uint32 (n : UInt32) : ofLeBytes (leBytes 4 n.toNat) = n.toNat :=
  ofLeBytes_of_lt n.toNat_lt

lemma htonl_htonl (n : UInt32) : htonl (htonl n) = n := by
  have hlen : (leBytes 4 n.toNat).reverse.length = 4 := by
    rw [List.length_reverse, length_leBytes]
  have hswap : (htonl n).toNat = ofLeBytes (leBytes 4 n.toNat).reverse := by
    have hlt := ofLeBytes_lt (leBytes 4 n.toNat).reverse
    rw [hlen] at hlt
    exact UInt32.toNat_ofNat_of_lt hlt
  have hback : leBytes 4 (ofLeBytes (leBytes 4 n.toNat).reverse) = (leBytes 4 n.toNat).reverse := by
    have h := leBytes_ofLeBytes (leBytes 4 n.toNat).reverse
    rwa [hlen] at h
  rw [htonl, hswap, hback, List.reverse_reverse, ofLeBytes_uint32, UInt32.ofNat_toNat]

lemma deserialize_serialize (data : Data) : deserializeData (serializeData data) = data := by
  simp only [deserializeData, serializeData, htonl_htonl]

lemma length_memory (data : Data) : data.memory.length = dataSize := by
  simp only [Data.memory, List.length_append, length_leBytes, data.length_data]
  rfl

lemma ofMemory_memory (data : Data) (h : data.memory.length = dataSize) :
    Data.ofMemory data.memory h = data := by
  have htake : data.memory.take 4 = leBytes 4 data.operation.toNat := by
    rw [Data.memory, List.append_assoc]
    exact List.take_left' (length_leBytes 4 _)
  have hdrop : data.memory.drop 4 = data.data ++ leBytes 4 data.size.toNat := by
    rw [Data.memory, List.append_assoc]
    exact List.drop_left' (length_leBytes 4 _)
  have hdata : (data.data ++ leBytes 4 data.size.toNat).take maxLine = data.data :=
    List.take_left' data.length_data
  have hsize : (data.data ++ leBytes 4 data.size.toNat).drop maxLine = leBytes 4 data.size.toNat :=
    List.drop_left' data.length_data
  simp only [Data.ofMemory, htake, hdrop, hdata, hsize, ofLeBytes_uint32,
    UInt32.ofNat_toNat]

lemma length_bytes (data : Data) : data.bytes.length = dataSize := length_memory (serializeData data)

lemma deserialize_bytes (hbytes : bytes = data.bytes) (h : bytes.length = dataSize) :
    deserializeData (Data.ofMemory bytes h) = data := by
  subst bytes
  have hread : Data.ofMemory data.bytes h = serializeData data := ofMemory_memory (serializeData data) h
  rw [hread, deserialize_serialize]

lemma cstr_fileNameData (hnul : (0 : UInt8) ∉ fileName) (hlen : fileName.length < maxLine - 1) :
    cstr ((fileNameData fileName).data.set (maxLine - 1) 0) = fileName := by
  obtain ⟨k, hk⟩ : ∃ k, maxLine - fileName.length = k + 1 := ⟨maxLine - fileName.length - 1, by omega⟩
  have htake : fileName.take (maxLine - 1) = fileName := List.take_of_length_le hlen.le
  have hdata : (fileNameData fileName).data = fileName ++ 0 :: List.replicate k 0 := by
    simp only [fileNameData, htake, hk, List.replicate_succ]
  rw [hdata, List.set_append_right _ _ hlen.le]
  obtain ⟨j, hj⟩ : ∃ j, maxLine - 1 - fileName.length = j + 1 := ⟨maxLine - 1 - fileName.length - 1, by omega⟩
  rw [hj, List.set_cons_succ]
  exact cstr_append_nul hnul _

lemma size_fill (h : bytes.length ≤ maxLine) : (data.fill bytes h).size.toNat = bytes.length :=
  UInt32.toNat_ofNat_of_lt (lt_of_le_of_lt h (by decide))

lemma take_fill (h : bytes.length ≤ maxLine) : (data.fill bytes h).data.take bytes.length = bytes :=
  List.take_left' rfl

end SystemsLab.FileTransfer
