import CodeAtlas.Client.Rehearsal
import CodeAtlas.Proofs.Client.Correlation
import CodeAtlas.Proofs.Client.Failure
import CodeAtlas.Proofs.Client.Farewell
import CodeAtlas.Proofs.Client.Numbering
import CodeAtlas.Proofs.Client.Serving
import CodeAtlas.Proofs.Client.Transitions
import CodeAtlas.Proofs.Rpc.Message
import CodeAtlas.Proofs.Store.Changing
import CodeAtlas.Proofs.Store.Failing
import CodeAtlas.Proofs.Store.Retention
import CodeAtlas.Proofs.Store.Retrying
import CodeAtlas.Proofs.Store.Searching
import CodeAtlas.Proofs.Uri.File
import CodeAtlas.Proofs.Wire.Headers
import CodeAtlas.Proofs.Wire.Offsets
import CodeAtlas.Settings.File
import CodeAtlas.Supervision.Child
