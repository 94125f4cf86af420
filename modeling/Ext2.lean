import Ext2.Scalar
import Ext2.Sector.Address
import Ext2.Sector.Order
import Ext2.Sector.Arith
import Ext2.Sector.Step
import Ext2.Volume.Size
import Ext2.Sys.Locate
import Ext2.Sys.BlockGroup
import Ext2.Sys.Inode
