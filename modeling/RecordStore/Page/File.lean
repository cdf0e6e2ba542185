import RecordStore.Storage.Error

/-!
# Page files

A file read and written in whole pages.  Opening fills a torn last page up with zeros.  Page counts have 32 bits, so a
page appended to a file of 2^32 pages or more goes where the count, taken in 32 bits, says, and the file is cut there.
-/

namespace RecordStore

open Bytes

def minPageSize : Nat := 256

def maxPageSize : Nat := 1 <<< 24

def defaultPageSize : Nat := 8192

def isPowerOfTwo (n : Nat) : Bool := n ≠ 0 && 1 <<< n.log2 = n

/-- A page size is a power of two from 256 bytes to 16 MiB; the first rule broken is the one reported. -/
def checkPageSize (pageSize : Nat) : Except StorageError Unit :=
  if !isPowerOfTwo pageSize then .error (.invalidPageSize pageSize .notPowerOfTwo)
  else if pageSize < minPageSize then .error (.invalidPageSize pageSize .tooSmall)
  else if maxPageSize < pageSize then .error (.invalidPageSize pageSize .tooLarge)
  else .ok ()

/-- The length of a file is a signed word of 64 bits. -/
def maxFileLength : Nat := (1 <<< 63) - 1

structure PageFile where
  content : SparseFile
  pageSize : Nat

namespace PageFile

/-- An empty file of pages, in place of any file that stood under `path` before. -/
def create (path : String) (entry : Entry) (pageSize : Nat) : Except StorageError PageFile := do
  checkPageSize pageSize
  match entry with
  | .blocked cause => throw (.file path cause)
  | _ => return { content := .empty, pageSize }

/-- The file under `path`, an empty one if there is none.  Every page of it is whole afterwards. -/
def openOrCreate (path : String) (entry : Entry) (pageSize : Nat) : Except StorageError PageFile := do
  checkPageSize pageSize
  match entry with
  | .blocked cause => throw (.file path cause)
  | .missing => return { content := .empty, pageSize }
  | .regular content =>
    if content.length % pageSize = 0 then return { content, pageSize }
    let whole := (content.length / pageSize + 1) * pageSize
    if maxFileLength < whole then throw (.io .lengthTooLarge)
    return { content := content.setLength whole, pageSize }

def checkBuffer (file : PageFile) (size : Nat) : Except StorageError Unit :=
  if size = file.pageSize then .ok () else .error (.bufferSizeMismatch file.pageSize size)

/-- Reads `page` into a buffer of `size` bytes, which has to be the page size. -/
def readPage (file : PageFile) (page : PageNumber) (size : Nat) : Except StorageError ByteArray := do
  file.checkBuffer size
  let offset := page.start file.pageSize
  if file.content.length ≤ offset then throw (.pageNotFound page)
  else if file.content.length < offset + file.pageSize then throw (.io .unexpectedEnd)
  else return file.content.read offset file.pageSize

/-- Overwrites `page`; a page past the end of the file brings the pages before it into being, zeroed. -/
def writePage (file : PageFile) (page : PageNumber) (data : ByteArray) : Except StorageError PageFile := do
  file.checkBuffer data.size
  return { file with content := file.content.write (page.start file.pageSize) data }

def pageCount (file : PageFile) : Nat := file.content.length / file.pageSize % (1 <<< 32)

/-- Appends a zeroed page. -/
def allocatePage (file : PageFile) : PageNumber × PageFile :=
  let page := file.pageCount
  (page, { file with content := file.content.setLength ((page + 1) * file.pageSize) })

end PageFile

end RecordStore
